import Yvex.Ir.PathInvariant

namespace Yvex.Ir

open List

/-! # Linear paths of verified modules -/

theorem pairwise_of_filter_nodup {values : List Nat} (distinct : (values.filter keep).Nodup) :
    values.Pairwise fun left right => keep left = true → left ≠ right := by
  grind

structure Ready (module : Module) (path : Path) (frame : Frame) (below : List Frame) (id : Nat)
    (rest : List Nat) (operation : Operation) : Prop where
  frames : path.frames = frame :: below
  idle : frame.waiting = none
  remaining : frame.remaining = id :: rest
  held : module.operations[id]? = some operation

namespace Ready

variable {module : Module} {path : Path} {below : List Frame} {id : Nat} {operation : Operation}

theorem mem (ready : Ready module path frame below id rest operation) : frame ∈ path.frames := by
  rw [ready.frames]
  exact mem_cons_self

theorem begun (ready : Ready module path frame below id rest operation) : frame.begun = [] := by
  unfold Frame.begun
  rw [ready.idle]
  rfl

theorem mem_logged : (value, version) ∈ (operation.operands.map fun value =>
        (value, module.lookup path.frames value)) ↔
      value ∈ operation.operands ∧ module.lookup path.frames value = version := by
  grind

end Ready

section

variable [Callbacks] {module : Module} {path : Path} {below : List Frame}

theorem FrameSound.append_bound (sound : FrameSound module trace frame) (values : List Nat)
    (first : Nat) :
    FrameSound module (trace ++ boundEvents values first) frame where
  verified := sound.verified
  operations := sound.operations
  defined := sound.defined
  owned value version held := mem_append_left _ (sound.owned value version held)
  consumed value version held consumed :=
    sound.consumed value version held (Module.consumed_append_bound.mp consumed)

variable {id : Nat}

theorem FrameSound.recount (sound : FrameSound module trace frame)
    (waiting : frame.waiting = some (id, entered)) (count : Nat) :
    FrameSound module trace { frame with waiting := some (id, count) } := by
  have begun : frame.begun = [id] := by
    unfold Frame.begun
    rw [waiting]
    rfl
  refine ⟨sound.verified, ?_, sound.defined, sound.owned, ?_⟩
  · have operations := sound.operations
    rw [begun] at operations
    exact operations
  · have consumed := sound.consumed
    rw [begun] at consumed
    exact consumed

namespace PathSound

section

variable (sound : PathSound module path)

include sound

theorem numbered_versions (member : other ∈ path.frames)
    (held : other.versions value = some version) : version < path.next :=
  sound.numbered value version ((sound.frames other member).owned value version held)

theorem unconsumed (fresh : path.next ≤ version) : ¬ module.Consumed path.trace version := by
  rintro ⟨id, operands, value, executed, operand, _⟩
  have bound := sound.numbered value version (sound.clean.bound executed operand)
  omega

theorem numbered_bound (values : List Nat) :
    ∀ value version, .bound value version ∈ path.trace ++ boundEvents values path.next →
      version < path.next + values.length := by
  intro value version member
  rcases mem_append.mp member with member | member
  · have bound := sound.numbered value version member
    omega
  · rcases bound_mem_boundEvents.mp member with ⟨index, held, rfl⟩
    have bound := index_lt held
    omega

theorem unique_bound (values : List Nat) :
    ∀ left right version, .bound left version ∈ path.trace ++ boundEvents values path.next →
      .bound right version ∈ path.trace ++ boundEvents values path.next → left = right := by
  intro left right version first second
  rcases mem_append.mp first with first | first <;>
    rcases mem_append.mp second with second | second
  · exact sound.unique left right version first second
  · have bound := sound.numbered left version first
    rcases bound_mem_boundEvents.mp second with ⟨index, _, rfl⟩
    omega
  · have bound := sound.numbered right version second
    rcases bound_mem_boundEvents.mp first with ⟨index, _, rfl⟩
    omega
  · rcases bound_mem_boundEvents.mp first with ⟨index, heldLeft, rfl⟩
    rcases bound_mem_boundEvents.mp second with ⟨other, heldRight, same⟩
    have equal : index = other := by omega
    subst equal
    rw [heldLeft, Option.some.injEq] at heldRight
    exact heldRight

end

end PathSound

/-! ## Executing an operation -/

namespace Ready

variable {id : Nat} {operation : Operation}

section

variable (ready : Ready module path frame below id rest operation)

include ready

section

variable (sound : PathSound module path)

include sound

theorem block : ∃ block, module.blocks[frame.block]? = some block ∧
      block.operations = frame.finished ++ id :: rest ∧
      Module.BlockChecked module frame.block block ∧
      Module.OperationChecked module frame.block id operation := by
  have frameSound := sound.frames frame ready.mem
  rcases frameSound.operations with ⟨block, held, operations⟩
  rcases frameSound.verified.checked with ⟨found, foundHeld, checked⟩
  rw [held, Option.some.injEq] at foundHeld
  subst foundHeld
  rw [ready.begun, ready.remaining, append_nil] at operations
  rcases checked.each id (by simp [operations]) with ⟨same, operationChecked, _⟩
  have isSame := operationChecked.found
  rw [ready.held, Option.some.injEq] at isSame
  subst isSame
  exact ⟨block, held, operations, checked, operationChecked⟩

theorem operand (placed : Placed module) (member : value ∈ operation.operands) :
    ∃ version, module.lookup path.frames value = some version ∧
      .bound value version ∈ path.trace := by
  rcases ready.block sound with ⟨block, held, operations, _, checked⟩
  have visible := checked.visible value member
  rcases Option.any_eq_true .. |>.mp visible with ⟨found, there, visible⟩
  have frames := sound.frames
  have stacked := sound.stacked
  rw [ready.frames] at frames stacked ⊢
  rcases lookup_of_visible placed there 64 frame below id rest block frames stacked held
    operations visible with ⟨version, looked⟩
  refine ⟨version, looked, ?_⟩
  rcases Module.lookup_mem looked with ⟨other, inFrames, bound⟩
  exact (frames other inFrames).owned value version bound

theorem state (placed : Placed module) (member : value ∈ operation.operands)
    (isState : module.isState value = true)
    (looked : module.lookup path.frames value = some version) :
    frame.versions value = some version := by
  rcases ready.block sound with ⟨block, held, operations, _, checked⟩
  rcases state_of_visible placed (sound.frames frame ready.mem) held operations
    (checked.visible value member) isState with ⟨own, bound⟩
  rw [ready.frames] at looked
  unfold Module.lookup at looked
  rw [bound] at looked
  rw [bound]
  exact looked

theorem clean (placed : Placed module) :
    module.Clean path.trace (.executed id (operation.operands.map fun value =>
      (value, module.lookup path.frames value))) := by
  rcases ready.block sound with ⟨block, _, operations, blockChecked, checked⟩
  refine ⟨?_, ?_, ?_⟩
  · rintro ⟨value, version⟩ logged
    rcases mem_logged.mp logged with ⟨member, rfl⟩
    exact ready.operand sound placed member
  · rintro value version logged ⟨earlier, operands, consumed, executed, operand, byEarlier⟩
    rcases mem_logged.mp logged with ⟨member, looked⟩
    rcases ready.operand sound placed member with ⟨same, lookedSame, bound⟩
    rw [looked, Option.some.injEq] at lookedSame
    subst lookedSame
    have isSame := sound.unique consumed value version
      (sound.clean.bound executed operand) bound
    subst isSame
    have isState : module.isState consumed = true := by
      rcases byEarlier with ⟨_, _, _, _, isState⟩
      exact isState
    have own := ready.state sound placed member isState looked
    rcases (sound.frames frame ready.mem).consumed consumed version own
      ⟨earlier, operands, consumed, executed, operand, byEarlier⟩ with
      ⟨finished, inFinished, byFinished⟩
    rw [ready.begun, append_nil] at inFinished
    have linear := blockChecked.linear
    rw [operations] at linear
    exact (pairwise_append.mp linear).2.2 finished inFinished id (by simp) consumed
      byFinished ⟨operation, ready.held, member⟩
  · rw [pairwise_map]
    by_cases consumes : module.consumes operation = true
    · refine (pairwise_of_filter_nodup (checked.distinct consumes)).imp_of_mem ?_
      rintro left right memberLeft memberRight different ⟨_, _, _, _, isState⟩ same
      rcases ready.operand sound placed memberLeft with ⟨version, lookedLeft, boundLeft⟩
      rcases ready.operand sound placed memberRight with ⟨other, lookedRight, boundRight⟩
      rw [lookedLeft, lookedRight, Option.some.injEq] at same
      subst same
      exact different isState (sound.unique left right version boundLeft boundRight)
    · apply pairwise_of_forall
      rintro left right ⟨found, there, consuming, _⟩
      rw [ready.held, Option.some.injEq] at there
      subst there
      exact absurd consuming consumes

theorem consumed_cases (placed : Placed module)
    (consumed : module.Consumed (path.trace ++ [.executed id (operation.operands.map
      fun value => (value, module.lookup path.frames value))]) version) :
    module.Consumed path.trace version ∨ ∃ value, frame.versions value = some version ∧
      module.ConsumedBy id value := by
  rcases consumed with ⟨other, operands, value, executed, operand, consumedBy⟩
  rcases mem_append.mp executed with executed | executed
  · exact .inl ⟨other, operands, value, executed, operand, consumedBy⟩
  simp only [mem_singleton] at executed
  rcases executed with ⟨rfl, rfl⟩
  rcases mem_logged.mp operand with ⟨member, looked⟩
  have isState : module.isState value = true := by
    rcases consumedBy with ⟨_, _, _, _, isState⟩
    exact isState
  exact .inr ⟨value, ready.state sound placed member isState looked, consumedBy⟩

end

end

end Ready

variable {operation : Operation}

theorem PathSound.begin (sound : PathSound module path) (placed : Placed module)
    (ready : Ready module path frame below id rest operation) :
    PathSound module (module.begin path frame below id rest operation) := by
  have frames := sound.frames
  have stacked := sound.stacked
  have apart := sound.apart
  rw [ready.frames] at frames stacked apart
  have frameSound := frames frame (by simp)
  have logged : ∀ {other value version}, PathEvent.bound value version ∈ path.trace →
      .bound value version ∈ path.trace ++ [other] := fun member => mem_append_left _ member
  constructor
  · intro other member
    rcases mem_cons.mp member with rfl | member
    · refine ⟨frameSound.verified, ?_, frameSound.defined,
        fun value version held => logged (frameSound.owned value version held), ?_⟩
      · rcases ready.block sound with ⟨block, held, operations, _⟩
        refine ⟨block, held, ?_⟩
        rw [operations]
        simp [Frame.begun]
      · intro value version held consumed
        rcases ready.consumed_cases sound placed consumed with consumed | ⟨same, own, byId⟩
        · rcases frameSound.consumed value version held consumed with ⟨earlier, member, byId⟩
          rw [ready.begun, append_nil] at member
          exact ⟨earlier, mem_append_left _ member, byId⟩
        have isSame := sound.unique same value version
          (frameSound.owned same version own) (frameSound.owned value version held)
        subst isSame
        exact ⟨id, by simp [Frame.begun], byId⟩
    · have otherSound := frames other (mem_cons_of_mem _ member)
      refine ⟨otherSound.verified, otherSound.operations, otherSound.defined,
        fun value version held => logged (otherSound.owned value version held), ?_⟩
      intro value version held consumed
      rcases ready.consumed_cases sound placed consumed with consumed | ⟨same, own, _⟩
      · exact otherSound.consumed value version held consumed
      · exact absurd held (rel_of_pairwise_cons apart member same value version own)
  · exact stacked
  · exact List.Pairwise.cons (pairwise_cons.mp apart).1 (pairwise_cons.mp apart).2
  · intro value version member
    rcases mem_append.mp member with member | member
    · exact sound.numbered value version member
    · simp at member
  · intro left right version first second
    rcases mem_append.mp first with first | first
    · rcases mem_append.mp second with second | second
      · exact sound.unique left right version first second
      · simp at second
    · simp at first
  · exact sound.clean.concat (ready.clean sound placed)

/-! ## Ending an operation -/

theorem PathSound.resumed (sound : PathSound module path) (placed : Placed module)
    (member : frame ∈ path.frames) (waiting : frame.waiting = some (id, entered))
    (held : module.operations[id]? = some operation) :
    FrameSound module (path.trace ++ boundEvents operation.results path.next)
      { frame with
        finished := frame.finished ++ [id]
        waiting := none
        versions := bindVersions operation.results path.next frame.versions } := by
  have frameSound := sound.frames frame member
  have begun : frame.begun = [id] := by
    unfold Frame.begun
    rw [waiting]
    rfl
  refine ⟨frameSound.verified, ?_, ?_, ?_, ?_⟩
  · have operations := frameSound.operations
    rw [begun] at operations
    simpa [Frame.begun] using operations
  · intro value found there same defined
    by_cases isResult : value ∈ operation.results
    · exact bindVersions_mem isResult _ _
    have old : ∃ version, frame.versions value = some version := by
      apply frameSound.defined value found there same
      intro definition isDefined
      rcases mem_append.mp (defined definition isDefined) with finished | isId
      · exact finished
      rw [mem_singleton.mp isId] at isDefined
      rcases placed.defined value found there id isDefined with ⟨other, atId, _, result⟩
      rw [held, Option.some.injEq] at atId
      subst atId
      exact absurd result isResult
    rcases old with ⟨version, bound⟩
    exact bindVersions_some bound
  · intro value version bound
    rcases bindVersions_cases bound with ⟨index, result, rfl⟩ | old
    · exact mem_append_right _ (bound_mem_boundEvents.mpr ⟨index, result, rfl⟩)
    · exact mem_append_left _ (frameSound.owned value version old)
  · intro value version bound consumed
    rw [Module.consumed_append_bound] at consumed
    rcases bindVersions_cases bound with ⟨index, _, rfl⟩ | old
    · exact absurd consumed (sound.unconsumed (Nat.le_add_right _ _))
    have before := frameSound.consumed value version old consumed
    rw [begun] at before
    simpa [Frame.begun] using before

theorem PathSound.complete (sound : PathSound module path) (placed : Placed module)
    (frames : path.frames = frame :: below) (waiting : frame.waiting = some (id, entered))
    (held : module.operations[id]? = some operation) :
    PathSound module (Module.complete path frame below id operation) := by
  have stacked := sound.stacked
  have apart := sound.apart
  have inBelow : ∀ other ∈ below, other ∈ path.frames := by
    intro other member
    rw [frames]
    exact mem_cons_of_mem _ member
  rw [frames] at stacked apart
  unfold Module.complete
  split
  · exact ⟨fun other member => sound.frames other (inBelow other member), stacked.2,
      (pairwise_cons.mp apart).2, sound.numbered, sound.unique, sound.clean⟩
  have member : frame ∈ path.frames := by simp [frames]
  constructor
  · intro other isFrame
    rcases mem_cons.mp isFrame with rfl | isFrame
    · exact sound.resumed placed member waiting held
    · exact (sound.frames other (inBelow other isFrame)).append_bound _ _
  · exact ⟨stacked.1, stacked.2⟩
  · refine List.Pairwise.cons ?_ (pairwise_cons.mp apart).2
    intro other isFrame left right version bound
    rcases bindVersions_cases bound with ⟨index, _, rfl⟩ | old
    · intro there
      have number := sound.numbered_versions (inBelow other isFrame) there
      omega
    · exact rel_of_pairwise_cons apart isFrame left right version old
  · exact sound.numbered_bound operation.results
  · exact sound.unique_bound operation.results
  · exact sound.clean.append_bound _ _

/-! ## Opening a block -/

theorem PathSound.opened {body : Nat} (sound : PathSound module path)
    (placed : Placed module) (verified : module.Verified body)
    (held : module.blocks[body]? = some found)
    (waits : ∀ parent, found.parentOperation = some parent → ∃ lower entered,
      path.frames.head? = some lower ∧ lower.waiting = some (parent, entered)) :
    PathSound module (Module.openBlock path path.frames body found) := by
  constructor
  · intro other isFrame
    rcases mem_cons.mp isFrame with rfl | isFrame
    · refine ⟨verified, ⟨found, held, by simp [Frame.begun]⟩, ?_, ?_, ?_⟩
      · intro value argument there same defined
        cases isDefined : argument.definition with
        | some definition =>
          have finished := defined definition isDefined
          cases finished
        | none => ?_
        rcases placed.argument value argument there isDefined with ⟨block, atBlock, member⟩
        rw [same, held, Option.some.injEq] at atBlock
        subst atBlock
        exact bindVersions_mem member path.next fun _ => none
      · intro value version bound
        change bindVersions found.arguments path.next (fun _ => none) value = _ at bound
        rcases bindVersions_cases bound with ⟨index, argument, rfl⟩ | none
        · exact mem_append_right _ (bound_mem_boundEvents.mpr ⟨index, argument, rfl⟩)
        · cases none
      · intro value version bound consumed
        change bindVersions found.arguments path.next (fun _ => none) value = _ at bound
        rcases bindVersions_cases bound with ⟨index, _, rfl⟩ | none
        · exact absurd (Module.consumed_append_bound.mp consumed)
            (sound.unconsumed (Nat.le_add_right _ _))
        · cases none
    · exact (sound.frames other isFrame).append_bound _ _
  · refine ⟨?_, sound.stacked⟩
    intro block parent atBlock isParent
    rw [held, Option.some.injEq] at atBlock
    subst atBlock
    exact waits parent isParent
  · refine List.Pairwise.cons ?_ sound.apart
    intro other isFrame left right version bound there
    have number := sound.numbered_versions isFrame there
    change bindVersions found.arguments path.next (fun _ => none) left = _ at bound
    rcases bindVersions_cases bound with ⟨index, _, rfl⟩ | none
    · omega
    · cases none
  · exact sound.numbered_bound found.arguments
  · exact sound.unique_bound found.arguments
  · exact sound.clean.append_bound _ _

theorem PathSound.recount (sound : PathSound module path) (frames : path.frames = frame :: below)
    (waiting : frame.waiting = some (id, entered)) (count : Nat) : PathSound module { path with
      frames := { frame with waiting := some (id, count) } :: below } := by
  have all := sound.frames
  have stacked := sound.stacked
  have apart := sound.apart
  rw [frames] at all stacked apart
  refine ⟨?_, stacked, ?_, sound.numbered, sound.unique, sound.clean⟩
  · intro other member
    rcases mem_cons.mp member with rfl | member
    · exact (all frame (by simp)).recount waiting count
    · exact all other (mem_cons_of_mem _ member)
  · exact List.Pairwise.cons (pairwise_cons.mp apart).1 (pairwise_cons.mp apart).2

theorem PathSound.body {body : Nat} (sound : PathSound module path)
    (verified : module.verify = .ok ()) (member : frame ∈ path.frames)
    (waiting : frame.waiting = some (id, entered)) (held : module.operations[id]? = some operation)
    (isBody : body ∈ module.bodies id operation) (atBody : module.blocks[body]? = some found) :
    module.Verified body ∧ ∀ parent, found.parentOperation = some parent → parent = id := by
  unfold Module.bodies at isBody
  split at isBody
  · simp only [Option.mem_toList, Option.map_eq_some_iff, Option.bind_eq_some_iff] at isBody
    rcases isBody with ⟨function, ⟨target, _, function_at⟩, rfl⟩
    rcases Module.verify_body verified function_at with ⟨bodyVerified, same, atSame, isBody⟩
    rw [atBody, Option.some.injEq] at atSame
    subst atSame
    refine ⟨bodyVerified, fun parent isParent => ?_⟩
    rw [isBody] at isParent
    cases isParent
  have frameSound := sound.frames frame member
  rcases frameSound.operations with ⟨block, atBlock, operations⟩
  rcases frameSound.verified.checked with ⟨same, atSame, checked⟩
  rw [atBlock, Option.some.injEq] at atSame
  subst atSame
  have listed : id ∈ block.operations := by
    rw [operations]
    simp [Frame.begun, waiting]
  rcases checked.each id listed with ⟨other, operationChecked, regions⟩
  have isSame := operationChecked.found
  rw [held, Option.some.injEq] at isSame
  subst isSame
  rcases regions body isBody with ⟨bodyVerified, region, atRegion, isRegion⟩
  rw [atBody, Option.some.injEq] at atRegion
  subst atRegion
  refine ⟨bodyVerified, fun parent isParent => ?_⟩
  rw [isRegion, Option.some.injEq] at isParent
  exact isParent.symm

/-! ## Whole paths -/

section

variable (sound : PathSound module path)

include sound

section

variable (placed : Placed module)

include placed

theorem PathSound.execute : PathSound module (module.execute path) := by
  unfold Module.execute
  split
  · exact sound
  rename_i frame below frames
  split
  · rename_i id rest idle remaining
    split
    · exact sound
    rename_i operation held
    have ready : Ready module path frame below id rest operation := ⟨frames, idle, remaining, held⟩
    have begun := sound.begin placed ready
    split
    · exact begun
    · exact begun.complete placed rfl rfl held
  · exact sound

theorem PathSound.enter (verified : module.verify = .ok ()) (body : Nat) :
    PathSound module (module.enter path body) := by
  unfold Module.enter
  split
  · exact sound
  rename_i frame below frames
  split
  · exact sound
  rename_i id entered waiting
  split
  · exact sound
  rename_i operation held
  split
  · exact sound
  rename_i found atBody
  split
  · rename_i admitted
    rcases sound.body verified (by simp [frames]) waiting held admitted.1 atBody with
      ⟨bodyVerified, isParent⟩
    refine (sound.recount frames waiting (entered + 1)).opened placed bodyVerified
      atBody ?_
    intro parent region
    exact ⟨_, entered + 1, rfl, by rw [isParent parent region]⟩
  · exact sound

theorem PathSound.finish : PathSound module (module.finish path) := by
  unfold Module.finish
  split
  · exact sound
  rename_i frame below frames
  split
  · exact sound
  rename_i id entered waiting
  split
  · exact sound
  rename_i operation held
  split
  · exact sound.complete placed frames waiting held
  · exact sound

theorem PathSound.step (verified : module.verify = .ok ()) (choice : Choice) :
    PathSound module (module.pathStep path choice) := by
  cases choice with
  | execute => exact sound.execute placed
  | enter body => exact sound.enter placed verified body
  | finish => exact sound.finish placed

end

end

section

variable (placed : Placed module) (verified : module.verify = .ok ())
  (member : function ∈ module.functions)

include placed verified member

theorem pathStart_sound : PathSound module (module.pathStart function) := by
  have empty : PathSound module { frames := [], next := 0, trace := [] } := by
    refine ⟨forall_mem_nil _, trivial, List.Pairwise.nil, ?_, ?_, ?_⟩
    · intro value version bound
      cases bound
    · intro left right version bound
      cases bound
    · intro before event after split
      have length := congrArg List.length split
      simp at length
  rcases getElem?_of_mem member with ⟨index, held⟩
  rcases Module.verify_body verified held with ⟨bodyVerified, body, atBody, isBody⟩
  unfold Module.pathStart
  rw [atBody]
  apply empty.opened placed bodyVerified atBody
  intro parent isParent
  rw [isBody] at isParent
  cases isParent

theorem path_sound (choices : List Choice) : PathSound module (module.path function choices) := by
  have run : ∀ start, PathSound module start →
      PathSound module (choices.foldl module.pathStep start) := by
    induction choices with
    | nil => exact fun start sound => sound
    | cons choice rest induction =>
      intro start sound
      exact induction _ (sound.step placed verified choice)
  exact run _ (pathStart_sound placed verified member)

end

/-- On every path of a built and verified module each executed operation finds its operands
bound before, no version it uses was consumed before, and it consumes no version twice. -/
theorem path_linear [StandardDialects] (built : Built module)
    (verified : module.verify = .ok ()) {function : Function}
    (member : function ∈ module.functions) (choices : List Choice) :
    ∀ before event after, (module.path function choices).trace = before ++ event :: after →
      module.Clean before event :=
  (path_sound built.placed verified member choices).clean

end

def loopModule : Except Rejection Module :=
  @buildModule coreOnly (ascii "loop") (List.replicate 64 48) [coreDialect]
    [.type ⟨.scalar, some .index, [], [], []⟩,
      .type ⟨.state, some .f32, [⟨none, 4⟩], ascii "cache.rows", []⟩,
      .function (ascii "carry") [0, 1] [1] ordered,
      .operation 0 ⟨coreLoopName, [0, 1], [1], [], 1⟩,
      .region 0 [0, 1],
      .operation 1 ⟨ascii "core.yield", [4], [], [], 1⟩,
      .operation 0 ⟨ascii "core.return", [2], [], [], 1⟩]

def loopChoices : List Choice :=
  [.execute, .enter 1, .execute, .enter 1, .execute, .finish, .execute]

def loopTrace : List PathEvent := [.bound 0 0, .bound 1 1, .executed 0 [(0, some 0), (1, some 1)],
    .bound 3 2, .bound 4 3, .executed 1 [(4, some 3)],
    .bound 3 4, .bound 4 5, .executed 1 [(4, some 5)],
    .bound 2 6, .executed 2 [(2, some 6)]]

theorem loopModule_runs : ∃ module function, loopModule = .ok module ∧
    @Module.verify module noCallbacks = .ok () ∧ function ∈ module.functions ∧
    (module.path function loopChoices).trace = loopTrace := by
  have checked : (loopModule.toOption.any fun module =>
      (@Module.verify module noCallbacks == .ok ()) && module.functions.any fun function =>
        (module.path function loopChoices).trace == loopTrace) = true := by
    decide +kernel
  cases made : loopModule with
  | error rejection =>
    rw [made] at checked
    cases checked
  | ok module => ?_
  rw [made] at checked
  simp only [Except.toOption, Option.any_some, Bool.and_eq_true, beq_iff_eq, any_eq_true] at checked
  rcases checked with ⟨verified, function, member, trace⟩
  exact ⟨module, function, rfl, verified, member, trace⟩

/-- The state of the loop is yielded once in each round. -/
theorem path_linear_loop : ∃ module function, @Built coreOnly module ∧
    @Module.verify module noCallbacks = .ok () ∧ function ∈ module.functions ∧
    (module.path function loopChoices).trace = loopTrace ∧
    ∀ before event after, loopTrace = before ++ event :: after → module.Clean before event := by
  rcases loopModule_runs with ⟨module, function, made, verified, member, trace⟩
  have built := @built_of_buildModule coreOnly _ _ _ _ _ made
  refine ⟨module, function, built, verified, member, trace, ?_⟩
  rw [← trace]
  exact @path_linear noCallbacks module coreOnly built verified function member loopChoices

end Yvex.Ir
