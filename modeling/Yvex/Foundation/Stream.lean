import Mathlib.Data.List.Infix
import Yvex.Foundation.Wire

namespace Yvex

open List Option

/-! # Streams that come in pieces

A peer sends a stream, and every call of a receiver takes some of it: a piece at most, and no more
than there is room for. The loops over such a receiver are shown to depend on the stream as far
as they can. -/

/-- One call with room for `limit` bytes. It returns nothing when the stream is closed. -/
def receive (limit : Nat) : List Bytes → Bytes × List Bytes
  | [] => ([], [])
  | piece :: pieces =>
    if piece.length ≤ limit then (piece, pieces)
    else (piece.take limit, piece.drop limit :: pieces)

def IsCut (pieces : List Bytes) (stream : Bytes) : Prop :=
  (∀ piece ∈ pieces, piece ≠ []) ∧ pieces.flatten = stream

theorem isCut_nil : IsCut [] [] := ⟨nofun, rfl⟩

theorem IsCut.cons (present : piece ≠ [])
    (cut : IsCut pieces stream) : IsCut (piece :: pieces) (piece ++ stream) := by
  refine ⟨forall_mem_cons.mpr ⟨present, cut.1⟩, ?_⟩
  rw [flatten_cons, cut.2]

variable {stream : Bytes}

theorem isCut_whole (present : stream ≠ []) : IsCut [stream] stream := by
  have cut := isCut_nil.cons present
  rwa [append_nil] at cut

theorem receive_spec (cut : IsCut pieces stream) (room : 0 < limit) :
    ∃ rest, stream = (receive limit pieces).1 ++ rest ∧ IsCut (receive limit pieces).2 rest ∧
      (receive limit pieces).1.length ≤ limit ∧ ((receive limit pieces).1 = [] → stream = []) := by
  obtain ⟨present, rfl⟩ := cut
  cases pieces with
  | nil => exact ⟨[], rfl, isCut_nil, Nat.zero_le _, fun _ => rfl⟩
  | cons piece pieces => ?_
  rw [forall_mem_cons] at present
  rw [receive, flatten_cons]
  split
  · rename_i fits
    exact ⟨pieces.flatten, rfl, ⟨present.2, rfl⟩, fits, fun empty => absurd empty present.1⟩
  rename_i large
  refine ⟨piece.drop limit ++ pieces.flatten, ?_, ?_, ?_, ?_⟩
  · rw [← append_assoc, take_append_drop]
  · apply IsCut.cons _ ⟨present.2, rfl⟩
    intro empty
    have short := drop_eq_nil_iff.mp empty
    omega
  · rw [length_take]
    exact Nat.min_le_left _ _
  · intro empty
    have length := congrArg List.length empty
    rw [length_take, length_nil] at length
    omega

inductive Gathered (α : Type) where
  | closed
  | full
  | found (mark : α) (buffer : Bytes) (pieces : List Bytes)

def gather {α : Type} (limit : Nat) (find : Bytes → Option α) :
    Nat → Bytes → List Bytes → Gathered α
  | 0, _, _ => .full
  | fuel + 1, buffer, pieces =>
    if limit ≤ buffer.length then .full
    else
      let (piece, rest) := receive (limit - buffer.length) pieces
      if piece.isEmpty then .closed
      else
        match find (buffer ++ piece) with
        | some mark => .found mark (buffer ++ piece) rest
        | none => gather limit find fuel (buffer ++ piece) rest

def Gathered.Describes {α : Type} (limit : Nat) (find : Bytes → Option α) (stream : Bytes) :
    Gathered α → Prop
  | .closed => stream.length < limit ∧ find stream = none
  | .full => limit ≤ stream.length ∧ find (stream.take limit) = none
  | .found mark buffer pieces =>
    buffer.length ≤ limit ∧ find buffer = some mark ∧
      ∃ rest, stream = buffer ++ rest ∧ IsCut pieces rest

theorem gather_describes (cut : IsCut pieces stream) (short : buffer.length ≤ limit)
    (enough : limit - buffer.length ≤ fuel) (missing : find buffer = none) :
    (gather limit find fuel buffer pieces).Describes limit find (buffer ++ stream) := by
  induction fuel generalizing buffer stream pieces with
  | zero =>
    have full : buffer.length = limit := by omega
    constructor
    · rw [length_append]
      omega
    · rw [← full, take_left]
      exact missing
  | succ fuel induction =>
    rw [gather]
    split
    · rename_i full
      have full : buffer.length = limit := by omega
      constructor
      · rw [length_append]
        omega
      · rw [← full, take_left]
        exact missing
    rename_i room
    obtain ⟨rest, split, cut', fits, closed⟩ :=
      receive_spec cut (by omega : 0 < limit - buffer.length)
    generalize receive (limit - buffer.length) pieces = received at split cut' fits closed
    obtain ⟨piece, others⟩ := received
    simp only at split cut' fits closed ⊢
    split
    · rename_i empty
      rw [closed (isEmpty_iff.mp empty), append_nil]
      exact ⟨by omega, missing⟩
    rename_i present
    have longer : piece.length ≠ 0 := by
      intro zero
      exact present (by rw [eq_nil_of_length_eq_zero zero]; rfl)
    rw [split, ← append_assoc]
    split
    · rename_i mark found
      refine ⟨?_, found, rest, rfl, cut'⟩
      rw [length_append]
      omega
    rename_i absent
    apply induction cut' _ _ absent
    · rw [length_append]
      omega
    · rw [length_append]
      omega

/-- Receives until a buffer has `count` bytes. -/
def fill (count : Nat) : Nat → Bytes → List Bytes → Option Bytes
  | 0, buffer, _ => if count ≤ buffer.length then some buffer else none
  | fuel + 1, buffer, pieces =>
    if count ≤ buffer.length then some buffer
    else
      let (piece, rest) := receive (count - buffer.length) pieces
      if piece.isEmpty then none else fill count fuel (buffer ++ piece) rest

theorem fill_eq {count fuel : Nat} (cut : IsCut pieces stream)
    (short : buffer.length ≤ count) (enough : count - buffer.length ≤ fuel) :
    fill count fuel buffer pieces =
      if count ≤ (buffer ++ stream).length then some ((buffer ++ stream).take count) else none := by
  induction fuel generalizing buffer stream pieces with
  | zero =>
    have full : count = buffer.length := by omega
    rw [fill, if_pos full.le, length_append, if_pos (by omega), full, take_left]
  | succ fuel induction => ?_
  rw [fill]
  split
  · rename_i full
    have full : count = buffer.length := by omega
    rw [length_append, if_pos (by omega), full, take_left]
  rename_i room
  obtain ⟨rest, split, cut', fits, closed⟩ :=
    receive_spec cut (by omega : 0 < count - buffer.length)
  generalize receive (count - buffer.length) pieces = received at split cut' fits closed
  obtain ⟨piece, others⟩ := received
  simp only at split cut' fits closed ⊢
  split
  · rename_i empty
    rw [closed (isEmpty_iff.mp empty), append_nil, if_neg room]
  rename_i present
  have longer : piece.length ≠ 0 := by
    intro zero
    exact present (by rw [eq_nil_of_length_eq_zero zero]; rfl)
  rw [split, ← append_assoc]
  apply induction cut'
  · rw [length_append]
    omega
  · rw [length_append]
    omega

/-- `strstr`: where a pattern comes first in a text. -/
def occurrence (pattern : Bytes) : Bytes → Option Nat
  | [] => if pattern.isEmpty then some 0 else none
  | byte :: text =>
    if pattern.isPrefixOf (byte :: text) then some 0
    else (occurrence pattern text).map (· + 1)

variable {pattern text : Bytes} {position : Nat}

theorem occurrence_eq_some_iff : occurrence pattern text = some position ↔
      position ≤ text.length ∧ pattern <+: text.drop position ∧
        ∀ earlier < position, ¬ pattern <+: text.drop earlier := by
  induction text generalizing position with
  | nil => cases pattern <;> cases position <;> simp [occurrence]
  | cons byte text induction =>
    rw [occurrence]
    split
    · rename_i here
      rw [ isPrefixOf_iff_prefix] at here
      cases position with
      | zero => simp [here]
      | succ position =>
        rw [Nat.forall_lt_succ_left]
        simp [here]
    · rename_i elsewhere
      rw [ isPrefixOf_iff_prefix] at elsewhere
      cases position with
      | zero => simp [elsewhere]
      | succ position =>
        rw [Nat.forall_lt_succ_left]
        simp [elsewhere, induction]

theorem occurrence_begins (found : occurrence pattern text = some position) :
    pattern <+: text.drop position ∧ ∀ earlier < position, ¬ pattern <+: text.drop earlier :=
  (occurrence_eq_some_iff.mp found).2

theorem occurrence_fits (found : occurrence pattern text = some position) :
    position + pattern.length ≤ text.length := by
  obtain ⟨within, here, -⟩ := occurrence_eq_some_iff.mp found
  have fits := here.length_le
  rw [length_drop] at fits
  omega

/-- What begins inside a text does not depend on what follows it. -/
theorem begins_append (fits : position + pattern.length ≤ text.length) :
    pattern <+: (text ++ more).drop position ↔ pattern <+: text.drop position := by
  rw [drop_append_of_le_length (by omega)]
  constructor
  · intro longer
    exact prefix_of_prefix_length_le longer (prefix_append _ _) (by rw [length_drop]; omega)
  · exact fun here => here.trans (prefix_append _ _)

theorem occurrence_append (found : occurrence pattern text = some position) (more : Bytes) :
    occurrence pattern (text ++ more) = some position := by
  have fits := occurrence_fits found
  obtain ⟨here, first⟩ := occurrence_begins found
  rw [occurrence_eq_some_iff, begins_append fits, length_append]
  refine ⟨by omega, here, fun earlier less => ?_⟩
  rw [begins_append (by omega)]
  exact first earlier less

theorem occurrence_of_append (found : occurrence pattern (text ++ more) = some position)
    (fits : position + pattern.length ≤ text.length) : occurrence pattern text = some position := by
  obtain ⟨here, first⟩ := occurrence_begins found
  rw [begins_append fits] at here
  refine occurrence_eq_some_iff.mpr ⟨by omega, here, fun earlier less => ?_⟩
  rw [← @begins_append _ _ _ more (by omega)]
  exact first earlier less

theorem occurrence_of_begins (fits : position ≤ text.length) (here :
    pattern <+: text.drop position) :
    ∃ first, occurrence pattern text = some first := by
  induction text generalizing position with
  | nil =>
    rw [drop_nil, prefix_nil] at here
    exact ⟨0, by rw [here]; rfl⟩
  | cons byte text induction => ?_
  rw [occurrence]
  split
  · exact ⟨0, rfl⟩
  rename_i elsewhere
  cases position with
  | zero => exact absurd ( isPrefixOf_iff_prefix.mpr here) elsewhere
  | succ position =>
    grind

theorem occurrence_eq_none_iff : occurrence pattern text = none ↔
      ∀ position ≤ text.length, ¬ pattern <+: text.drop position := by
  constructor
  · intro absent position fits here
    obtain ⟨first, found⟩ := occurrence_of_begins fits here
    cases absent.symm.trans found
  intro absent
  cases found : occurrence pattern text with
  | none => rfl
  | some position =>
    obtain ⟨fits, here, -⟩ := occurrence_eq_some_iff.mp found
    exact absurd here (absent position fits)

end Yvex
