import Yvex.Ir.Linearity
import Yvex.Ir.Paths

namespace Yvex.Ir

open List

/-! # The invariant of paths

Every open execution of a verified block has bound the arguments and the results of its
finished operations, and a version it owns has been consumed only by operations that it has
begun. -/

theorem bindVersions_cases (held : bindVersions values first versions value = some version) :
    (∃ index, values[index]? = some value ∧ version = first + index) ∨
      versions value = some version := by
  unfold bindVersions at held
  cases place : values.findIdx? (· == value) with
  | none =>
    rw [place] at held
    exact .inr held
  | some index => ?_
  rw [place] at held
  simp only [Option.some.injEq] at held
  rw [findIdx?_eq_some_iff_getElem] at place
  rcases place with ⟨bound, same, _⟩
  refine .inl ⟨index, ?_, held.symm⟩
  rw [getElem?_eq_getElem bound, ← beq_iff_eq.mp same]

theorem bindVersions_mem (member : value ∈ values) (first : Nat) (versions : Nat → Option Nat) :
    ∃ version, bindVersions values first versions value = some version := by
  unfold bindVersions
  cases place : values.findIdx? (· == value) with
  | none =>
    rw [findIdx?_eq_none_iff] at place
    have different := place value member
    simp at different
  | some index => exact ⟨_, rfl⟩

theorem bindVersions_some (held : versions value = some version) :
    ∃ version, bindVersions values first versions value = some version := by
  unfold bindVersions
  cases values.findIdx? (· == value) with
  | none => exact ⟨version, held⟩
  | some index => exact ⟨_, rfl⟩

theorem bound_mem_boundEvents : .bound value version ∈ boundEvents values first ↔
      ∃ index, values[index]? = some value ∧ version = first + index := by
  unfold boundEvents
  rw [mem_map]
  constructor
  · grind
  · rintro ⟨index, held, rfl⟩
    exact ⟨(value, index), mk_mem_zipIdx_iff_getElem?.mpr held, rfl⟩

theorem executed_notMem_boundEvents {id : Nat} :
    .executed id operands ∉ boundEvents values first := by
  unfold boundEvents
  simp

namespace Module

variable {module : Module}

theorem consumed_append_bound {values : List Nat} :
    module.Consumed (trace ++ boundEvents values first) version ↔
      module.Consumed trace version := by
  unfold Consumed
  simp only [mem_append, executed_notMem_boundEvents, or_false]

def CleanTrace (module : Module) (trace : List PathEvent) : Prop :=
  ∀ before event after, trace = before ++ event :: after → module.Clean before event

theorem CleanTrace.concat (clean : module.CleanTrace trace)
    (last : module.Clean trace event) : module.CleanTrace (trace ++ [event]) := by
  intro before other after split
  rcases eq_nil_or_concat after with rfl | ⟨front, final, rfl⟩
  · rcases append_inj' split rfl with ⟨rfl, same⟩
    cases same
    exact last
  have regroup : trace ++ [event] = (before ++ other :: front) ++ [final] := by
    rw [split]
    simp
  exact clean before other front (append_inj' regroup rfl).1

theorem CleanTrace.append_bound (clean : module.CleanTrace trace) (values : List Nat) (first : Nat) :
    module.CleanTrace (trace ++ boundEvents values first) := by
  have each : ∀ (events : List PathEvent) (start : List PathEvent), module.CleanTrace start →
      (∀ event ∈ events, ∃ value version, event = .bound value version) →
      module.CleanTrace (start ++ events) := by
    intro events
    induction events with
    | nil =>
      intro start clean _
      rw [append_nil]
      exact clean
    | cons event rest induction => ?_
    intro start clean bounds
    rcases bounds event (by simp) with ⟨value, version, rfl⟩
    have first : module.CleanTrace (start ++ [.bound value version]) := clean.concat trivial
    have next := induction _ first fun other member => bounds other (mem_cons_of_mem _ member)
    rwa [append_assoc] at next
  apply each _ _ clean
  intro event member
  rcases mem_map.mp member with ⟨⟨value, index⟩, _, rfl⟩
  exact ⟨value, first + index, rfl⟩

theorem CleanTrace.bound (clean : module.CleanTrace trace) {id : Nat}
    (executed : .executed id operands ∈ trace)
    (operand : (value, some version) ∈ operands) : .bound value version ∈ trace := by
  rcases append_of_mem executed with ⟨before, after, rfl⟩
  rcases (clean before _ after rfl).1 _ operand with ⟨same, isSame, bound⟩
  cases isSame
  exact mem_append_left _ bound

theorem lookup_mem (found : module.lookup frames value = some version) :
    ∃ frame ∈ frames, frame.versions value = some version := by
  induction frames with
  | nil => cases found
  | cons frame below induction => ?_
  unfold lookup at found
  cases held : frame.versions value with
  | some own =>
    rw [held] at found
    cases found
    exact ⟨frame, by simp, held⟩
  | none => ?_
  simp only [held] at found
  by_cases region : (module.blocks[frame.block]?.any fun found =>
      found.parentOperation.isSome) = true
  · grind
  · rw [if_neg region] at found
    cases found

end Module

namespace Frame

def begun (frame : Frame) : List Nat := (frame.waiting.map (·.1)).toList

end Frame

section

variable [Callbacks]

structure FrameSound (module : Module) (trace : List PathEvent) (frame : Frame) : Prop where
  verified : module.Verified frame.block
  operations : ∃ found, module.blocks[frame.block]? = some found ∧
    found.operations = frame.finished ++ frame.begun ++ frame.remaining
  defined : ∀ value found, module.values[value]? = some found → found.block = frame.block →
    (∀ definition, found.definition = some definition → definition ∈ frame.finished) →
    ∃ version, frame.versions value = some version
  owned : ∀ value version, frame.versions value = some version → .bound value version ∈ trace
  consumed : ∀ value version, frame.versions value = some version → module.Consumed trace version →
    ∃ id ∈ frame.finished ++ frame.begun, module.ConsumedBy id value

def Stacked (module : Module) : List Frame → Prop
  | [] => True
  | frame :: below =>
    (∀ (found : Block) (parent : Nat), module.blocks[frame.block]? = some found →
      found.parentOperation = some parent → ∃ lower entered, below.head? = some lower ∧
        lower.waiting = some (parent, entered)) ∧
    Stacked module below

structure PathSound (module : Module) (path : Path) : Prop where
  frames : ∀ frame ∈ path.frames, FrameSound module path.trace frame
  stacked : Stacked module path.frames
  apart : path.frames.Pairwise fun above below => ∀ left right version,
    above.versions left = some version → below.versions right ≠ some version
  numbered : ∀ value version, .bound value version ∈ path.trace → version < path.next
  unique : ∀ left right version, .bound left version ∈ path.trace →
    .bound right version ∈ path.trace → left = right
  clean : module.CleanTrace path.trace

variable {module : Module}

variable {frame : Frame} {block : Block}

theorem FrameSound.bound_of_visible (sound : FrameSound module trace frame) (placed : Placed module)
    (held : module.blocks[frame.block]? = some block)
    (split : block.operations = frame.finished ++ use :: later)
    (there : module.values[value]? = some found) (same : found.block = frame.block)
    (before : ∀ definition, found.definition = some definition → definition < use) :
    ∃ version, frame.versions value = some version := by
  apply sound.defined value found there same
  intro definition defined
  rcases placed.defined value found there definition defined with ⟨operation, atId, inBlock, _⟩
  rcases placed.placed definition operation atId with ⟨owner, ownerHeld, member⟩
  rw [inBlock, same, held, Option.some.injEq] at ownerHeld
  subst ownerHeld
  have rising := placed.rising frame.block block held
  rw [split] at member rising
  rcases mem_append.mp member with member | member
  · exact member
  have smaller := before definition defined
  rcases mem_cons.mp member with rfl | member
  · omega
  · have larger := rel_of_pairwise_cons (pairwise_append.mp rising).2.1 member
    omega

theorem lookup_of_visible (placed : Placed module) (there : module.values[value]? = some found)
    (depth : Nat) :
    ∀ (frame : Frame) (below : List Frame) (use : Nat) (later : List Nat) (block : Block),
      (∀ other ∈ frame :: below, FrameSound module trace other) →
      Stacked module (frame :: below) → module.blocks[frame.block]? = some block →
      block.operations = frame.finished ++ use :: later →
      module.visible value found depth use = true →
      ∃ version, module.lookup (frame :: below) value = some version := by
  induction depth with
  | zero =>
    intro frame below use later block _ _ _ _ visible
    cases visible
  | succ depth induction => ?_
  intro frame below use later block sound stacked held split visible
  unfold Module.lookup
  cases own : frame.versions value with
  | some version => exact ⟨version, rfl⟩
  | none => ?_
  rcases placed.listed frame.block block held use (by simp [split]) with
    ⟨operation, atUse, inBlock⟩
  unfold Module.visible at visible
  simp only [atUse, inBlock, held] at visible
  by_cases same : frame.block = found.block
  · rw [if_pos same] at visible
    have before : ∀ definition, found.definition = some definition → definition < use := by
      intro definition defined
      rw [defined] at visible
      simpa using visible
    rcases (sound frame (by simp)).bound_of_visible placed held split there same.symm
      before with ⟨version, bound⟩
    rw [own] at bound
    cases bound
  rw [if_neg same] at visible
  split at visible
  · cases visible
  cases region : block.parentOperation with
  | none =>
    rw [region] at visible
    cases visible
  | some parent => ?_
  rw [region] at visible
  rcases stacked.1 block parent held region with
    ⟨lower, entered, isHead, waiting⟩
  cases below with
  | nil => cases isHead
  | cons next rest => ?_
  cases isHead
  have lowerSound := sound lower (by simp)
  rcases lowerSound.operations with ⟨owner, ownerHeld, operations⟩
  have begun : lower.begun = [parent] := by
    unfold Frame.begun
    rw [waiting]
    rfl
  rw [begun, append_assoc] at operations
  rcases induction lower rest parent lower.remaining owner
    (fun other member => sound other (mem_cons_of_mem _ member))
    stacked.2 ownerHeld operations visible with ⟨version, deeper⟩
  refine ⟨version, ?_⟩
  simp only [held, region, Option.any_some]
  exact deeper

theorem state_of_visible (placed : Placed module) (sound : FrameSound module trace frame)
    (held : module.blocks[frame.block]? = some block)
    (split : block.operations = frame.finished ++ use :: later)
    (visible : module.operandVisible use value = true) (state : module.isState value = true) :
    ∃ version, frame.versions value = some version := by
  rcases Option.any_eq_true .. |>.mp visible with ⟨found, there, visible⟩
  rcases placed.listed frame.block block held use (by simp [split]) with
    ⟨operation, atUse, inBlock⟩
  unfold Module.visible at visible
  simp only [atUse, inBlock, held] at visible
  by_cases same : frame.block = found.block
  · rw [if_pos same] at visible
    apply sound.bound_of_visible placed held split there same.symm
    intro definition defined
    rw [defined] at visible
    simpa using visible
  · rw [if_neg same, if_pos state] at visible
    cases visible

end

end Yvex.Ir
