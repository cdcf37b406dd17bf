import Yvex.Ir.Built
import Yvex.Ir.Verify

namespace Yvex.Ir.Module

open List Yvex.Except Bool

/-! # What verification establishes of a block

The `consumed` array is written for good: a state version that an operation has consumed is
refused as an operand of every later operation. Along one block this gives the linearity of
its state versions. -/

variable {module : Module}

theorem stateOperandVerify_eq
    (checked : module.stateOperandVerify operation consumed earlier value = .ok ())
    (state : module.isState value = true) :
    consumed value = false ∧ (module.consumes operation = true → value ∉ earlier) := by
  unfold stateOperandVerify at checked
  rw [if_pos state] at checked
  simp only [bind_eq_ok, require_eq_ok, and_eq_true, not_eq_true',
    or_eq_true, contains_eq_mem, decide_eq_false_iff_not] at checked
  rcases checked with ⟨_, ⟨fresh, _⟩, once⟩
  refine ⟨fresh, fun consuming => ?_⟩
  rcases once with reading | once
  · rw [consuming] at reading
    cases reading
  · exact once

theorem stateOperandsVerify_eq
    (checked : module.stateOperandsVerify operation consumed earlier rest = .ok ()) :
    (∀ value ∈ rest, module.isState value = true → consumed value = false) ∧
      (module.consumes operation = true → (rest.filter module.isState).Nodup ∧
        ∀ value ∈ rest, module.isState value = true → value ∉ earlier) := by
  induction rest generalizing earlier with
  | nil => simp
  | cons value rest induction => ?_
  unfold stateOperandsVerify at checked
  rw [bind_eq_ok] at checked
  rcases checked with ⟨_, first, checked⟩
  rcases induction checked with ⟨fresh, once⟩
  constructor
  · intro other member state
    rcases mem_cons.mp member with rfl | member
    · exact (stateOperandVerify_eq first state).1
    · exact fresh other member state
  intro consuming
  rcases once consuming with ⟨distinct, apart⟩
  constructor
  · grind
  · intro other member state
    rcases mem_cons.mp member with rfl | member
    · exact (stateOperandVerify_eq first state).2 consuming
    · intro before
      exact apart other member state (mem_append_left _ before)

theorem consume_kept (before : consumed other = true) :
    module.consume consumed value other = true := by
  unfold consume
  split
  · grind
  · exact before

theorem consume_self (state : module.isState value = true) :
    module.consume consumed value value = true := by
  unfold consume
  rw [if_pos state, Function.update_self]

variable {values : List Nat}

theorem foldl_consume_kept (before : consumed other = true) :
    values.foldl module.consume consumed other = true := by
  induction values generalizing consumed with
  | nil => exact before
  | cons value rest induction => exact induction (consume_kept before)

theorem foldl_consume_mem (member : value ∈ values) (state : module.isState value = true) :
    values.foldl module.consume consumed value = true := by
  induction values generalizing consumed with
  | nil => cases member
  | cons first rest induction => ?_
  rcases mem_cons.mp member with rfl | member
  · rw [foldl_cons]
    exact foldl_consume_kept (consume_self state)
  · exact induction member

structure StateChecked (module : Module) (operation : Operation) (before after : Nat → Bool) :
    Prop where
  fresh : ∀ value ∈ operation.operands, module.isState value = true → before value = false
  distinct : module.consumes operation = true → (operation.operands.filter module.isState).Nodup
  kept : ∀ value, before value = true → after value = true
  consumed : module.consumes operation = true → ∀ value ∈ operation.operands,
    module.isState value = true → after value = true

theorem stateVerify_eq {before after : Nat → Bool}
    (checked : module.stateVerify operation before = .ok after) :
    StateChecked module operation before after := by
  unfold stateVerify at checked
  simp only [bind_eq_ok, pure_eq_ok] at checked
  rcases checked with ⟨_, operands, _, _, rfl⟩
  rcases stateOperandsVerify_eq operands with ⟨fresh, once⟩
  refine ⟨fresh, fun consuming => (once consuming).1, ?_, ?_⟩
  · intro value before
    split
    · exact foldl_consume_kept before
    · exact before
  · intro consuming value member state
    rw [if_pos consuming]
    exact foldl_consume_mem member state

structure OperationChecked (module : Module) (block id : Nat) (operation : Operation) : Prop where
  found : module.operations[id]? = some operation
  owner : operation.block = block
  visible : ∀ value ∈ operation.operands, module.operandVisible id value = true
  results : ∀ value ∈ operation.results, ∃ found, module.values[value]? = some found ∧
    found.block = block ∧ found.definition = some id
  distinct : module.consumes operation = true → (operation.operands.filter module.isState).Nodup

theorem allOwned_mem (owned : module.allOwned block definition values = true)
    (member : value ∈ values) : ∃ found, module.values[value]? = some found ∧ found.block = block ∧
      found.definition = definition := by
  rcases getElem?_of_mem member with ⟨index, held⟩
  have listed : (value, index) ∈ values.zipIdx := mk_mem_zipIdx_iff_getElem?.mpr held
  have checked := all_eq_true.mp owned _ listed
  rcases Option.any_eq_true .. |>.mp checked with ⟨found, there, checked⟩
  simp only [and_eq_true, beq_iff_eq] at checked
  exact ⟨found, there, checked.1.1.2, checked.1.2⟩

section

variable [Callbacks] {function : Function} {before after : Marks} {id : Nat}

theorem operationVerify_eq
    (checked : module.operationVerify block function id before = .ok (operation, after)) :
    OperationChecked module block id operation ∧
      StateChecked module operation before.consumed after.consumed := by
  unfold operationVerify at checked
  simp only [bind_eq_ok, require_eq_ok, orReject_eq_ok] at checked
  rcases checked with ⟨_, found, _, owned, _, visible, _, results, _, _, consumed, state, rfl, rfl⟩
  have stateChecked := stateVerify_eq state
  simp only [and_eq_true, operationOwned, beq_iff_eq] at owned
  exact ⟨⟨found, owned.2.1.1.1, all_eq_true.mp visible,
    fun value => allOwned_mem results, stateChecked.distinct⟩, stateChecked⟩

def Verified (module : Module) (block : Nat) : Prop :=
  ∃ depth before after, module.blockVerify depth block before = .ok after

def RegionsChecked (module : Module) (id : Nat) (regions : List Nat) : Prop :=
  ∀ region ∈ regions, module.Verified region ∧
    ∃ found, module.blocks[region]? = some found ∧ found.parentOperation = some id

theorem regionsVerify_eq (sound : ∀ region before after, verifyRegion region before = .ok after →
      module.Verified region ∧ ∀ value, before.consumed value = true →
        after.consumed value = true) {function : Nat}
    (checked : module.regionsVerify verifyRegion function id regions before = .ok after) :
    module.RegionsChecked id regions ∧
      ∀ value, before.consumed value = true → after.consumed value = true := by
  induction regions generalizing before with
  | nil =>
    cases checked
    exact ⟨forall_mem_nil _, fun _ kept => kept⟩
  | cons region rest induction => ?_
  unfold regionsVerify at checked
  simp only [bind_eq_ok, require_eq_ok] at checked
  rcases checked with ⟨_, owned, middle, first, checked⟩
  rcases sound region before middle first with ⟨verified, kept⟩
  rcases induction checked with ⟨restChecked, keptRest⟩
  refine ⟨?_, fun value marked => keptRest value (kept value marked)⟩
  intro other member
  rcases mem_cons.mp member with rfl | member
  · grind
  · exact restChecked other member

def UsedBy (module : Module) (id value : Nat) : Prop :=
  ∃ operation, module.operations[id]? = some operation ∧ value ∈ operation.operands

structure OperationsChecked (module : Module) (block : Nat) (ids : List Nat)
    (before after : Nat → Bool) : Prop where
  each : ∀ id ∈ ids, ∃ operation, OperationChecked module block id operation ∧
    module.RegionsChecked id operation.regions
  kept : ∀ value, before value = true → after value = true
  fresh : ∀ value, before value = true → module.isState value = true →
    ∀ id ∈ ids, ¬ module.UsedBy id value
  linear : ids.Pairwise fun earlier later =>
    ∀ value, module.ConsumedBy earlier value → ¬ module.UsedBy later value

theorem operationsVerify_eq (sound : ∀ region before after, verifyRegion region before = .ok after →
      module.Verified region ∧ ∀ value, before.consumed value = true → after.consumed value = true)
    (checked : module.operationsVerify verifyRegion block found function ids before = .ok after) :
    OperationsChecked module block ids before.consumed after.consumed := by
  induction ids generalizing before with
  | nil =>
    cases checked
    exact ⟨forall_mem_nil _, fun _ kept => kept, fun _ _ _ => forall_mem_nil _, List.Pairwise.nil⟩
  | cons id rest induction => ?_
  unfold operationsVerify at checked
  simp only [bind_eq_ok, Prod.exists] at checked
  rcases checked with ⟨operation, marked, verified, middle, regions, _, _, checked⟩
  rcases operationVerify_eq verified with ⟨operationChecked, state⟩
  rcases regionsVerify_eq sound regions with ⟨regionsChecked, keptRegions⟩
  have later := induction checked
  have toMiddle : ∀ value, before.consumed value = true → middle.consumed value = true :=
    fun value marked => keptRegions value (state.kept value marked)
  have same : ∀ {other : Operation}, module.operations[id]? = some other → other = operation := by
    intro other there
    rw [operationChecked.found, Option.some.injEq] at there
    exact there.symm
  constructor
  · grind [cases OperationsChecked]
  · exact fun value marked => later.kept value (toMiddle value marked)
  · intro value marked isState other member
    rcases mem_cons.mp member with rfl | member
    · rintro ⟨used, there, operand⟩
      rw [same there] at operand
      rw [state.fresh value operand isState] at marked
      cases marked
    · exact later.fresh value (toMiddle value marked) isState other member
  · refine List.Pairwise.cons ?_ later.linear
    rintro other member value ⟨consuming, there, consumes, operand, isState⟩
    rw [same there] at consumes operand
    exact later.fresh value (keptRegions value
      (state.consumed consumes value operand isState)) isState other member

theorem blockVerify_kept (depth : Nat) : ∀ block before after,
    module.blockVerify depth block before = .ok after →
      module.Verified block ∧ ∀ value, before.consumed value = true →
        after.consumed value = true := by
  induction depth with
  | zero =>
    intro block before after checked
    cases checked
  | succ depth induction => ?_
  intro block before after checked
  refine ⟨⟨depth + 1, before, after, checked⟩, ?_⟩
  unfold blockVerify at checked
  simp only [bind_eq_ok, pure_eq_ok] at checked
  rcases checked with ⟨found, _, function, _, _, _, _, _, last, operations, _, _, rfl⟩
  exact (operationsVerify_eq induction operations).kept

structure BlockChecked (module : Module) (block : Nat) (found : Block) : Prop where
  each : ∀ id ∈ found.operations, ∃ operation, OperationChecked module block id operation ∧
    module.RegionsChecked id operation.regions
  linear : found.operations.Pairwise fun earlier later =>
    ∀ value, module.ConsumedBy earlier value → ¬ module.UsedBy later value
  arguments : ∀ value ∈ found.arguments, ∃ argument, module.values[value]? = some argument ∧
    argument.block = block ∧ argument.definition = none

theorem Verified.checked (verified : module.Verified block) :
    ∃ found, module.blocks[block]? = some found ∧ BlockChecked module block found := by
  rcases verified with ⟨depth, before, after, checked⟩
  cases depth with
  | zero => cases checked
  | succ depth => ?_
  unfold blockVerify at checked
  simp only [bind_eq_ok, require_eq_ok, orReject_eq_ok, pure_eq_ok] at checked
  rcases checked with
    ⟨found, there, function, _, _, _, _, arguments, last, operations, _, _, rfl⟩
  have all := operationsVerify_eq (blockVerify_kept depth) operations
  exact ⟨found, there, all.each, all.linear, fun value => allOwned_mem arguments⟩

theorem functionsVerify_eq {functions : List (Function × Nat)}
    (checked : module.functionsVerify functions before = .ok after) :
    ∀ function index, (function, index) ∈ functions →
      module.bodyOwned index function = true ∧ module.Verified function.body := by
  induction functions generalizing before with
  | nil =>
    intro function index member
    cases member
  | cons first rest induction => ?_
  unfold functionsVerify at checked
  simp only [bind_eq_ok, require_eq_ok] at checked
  rcases checked with ⟨_, owned, middle, verified, checked⟩
  intro function index member
  rcases mem_cons.mp member with rfl | member
  · exact ⟨owned, (blockVerify_kept 65 _ _ _ verified).1⟩
  · exact induction checked function index member

theorem verify_body (verified : module.verify = .ok ()) {index : Nat}
    (held : module.functions[index]? = some function) :
    module.Verified function.body ∧ ∃ body, module.blocks[function.body]? = some body ∧
      body.parentOperation = none := by
  unfold verify at verified
  simp only [bind_eq_ok] at verified
  rcases verified with ⟨_, _, _, _, marks, functions, _⟩
  have listed : (function, index) ∈ module.functions.zipIdx := mk_mem_zipIdx_iff_getElem?.mpr held
  rcases functionsVerify_eq functions function index listed with ⟨owned, verified⟩
  rcases Option.any_eq_true .. |>.mp owned with ⟨body, there, owned⟩
  simp only [and_eq_true, Option.isNone_iff_eq_none] at owned
  exact ⟨verified, body, there, owned.2⟩

end

end Yvex.Ir.Module
