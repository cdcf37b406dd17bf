import Yvex.Ir.Calls

namespace Yvex.Ir

open Option List

/-! # Modules built in another order

Adding the functions of a module in another order gives other numbers to its functions,
blocks, operations and values. Only the numbers differ, so the verdict on calls is the one of the
same walk in another order of the functions, and every order is one of some module. -/

/-- The same module under other numbers. -/
structure Reordering (source target : Module) where
  function : Equiv.Perm Nat
  block : Equiv.Perm Nat
  operation : Equiv.Perm Nat
  value : Equiv.Perm Nat
  name : target.name = source.name
  sourceIdentity : target.sourceIdentity = source.sourceIdentity
  dialects : target.dialects = source.dialects
  dimensions : target.dimensions = source.dimensions
  types : target.types = source.types
  functions : ∀ index, target.functions[function index]? =
    source.functions[index]?.map fun found => { found with body := block found.body }
  blocks : ∀ index, target.blocks[block index]? = source.blocks[index]?.map fun found =>
    { function := function found.function
      parentOperation := found.parentOperation.map operation
      operations := found.operations.map operation
      arguments := found.arguments.map value }
  operations : ∀ index, target.operations[operation index]? =
    source.operations[index]?.map fun found =>
      { found with
        block := block found.block
        operands := found.operands.map value
        results := found.results.map value
        regions := found.regions.map block }
  values : ∀ index, target.values[value index]? = source.values[index]?.map fun found =>
    { found with
      block := block found.block
      definition := found.definition.map operation }

def Module.DistinctSymbols (module : Module) : Prop :=
  ∀ (left right : Nat) (first second : Function), module.functions[left]? = some first →
    module.functions[right]? = some second → first.symbol = second.symbol → left = right

namespace Reordering

def refl (module : Module) : Reordering module module where
  function := Equiv.refl Nat
  block := Equiv.refl Nat
  operation := Equiv.refl Nat
  value := Equiv.refl Nat
  name := rfl
  sourceIdentity := rfl
  dialects := rfl
  dimensions := rfl
  types := rfl
  functions index := by simp
  blocks index := by simp
  operations index := by simp
  values index := by simp

variable (reordering : Reordering source target)

/-- The colours under the other numbers. -/
def moved (colors : Module.Colors) : Module.Colors :=
  fun index => colors (reordering.function.symm index)

theorem moved_update (colors : Module.Colors) (index : Nat) (color : Module.Color) :
    Function.update (reordering.moved colors) (reordering.function index) color =
      reordering.moved (Function.update colors index color) := by
  funext place
  simp only [moved, Function.update_apply, Equiv.symm_apply_eq]

theorem foldlM_moved {step other : Module.Colors → Nat → Option Module.Colors}
    (each : ∀ colors item, other (reordering.moved colors) item =
      (step colors item).map reordering.moved) (items : List Nat) (colors : Module.Colors) :
    items.foldlM other (reordering.moved colors) =
      (items.foldlM step colors).map reordering.moved := by
  induction items generalizing colors with
  | nil => rfl
  | cons item items induction =>
    rw [foldlM_cons, foldlM_cons, each]
    cases step colors item with
    | none => rfl
    | some next => exact induction next

section

variable (distinct : source.DistinctSymbols)

include distinct

theorem functionFind (name : Bytes) :
    target.functionFind name = (source.functionFind name).map reordering.function := by
  have origin : ∀ {index function}, target.functions[index]? = some function →
      ∃ found, source.functions[reordering.function.symm index]? = some found ∧
        found.symbol = function.symbol := by
    intro index function present
    have moves := reordering.functions (reordering.function.symm index)
    rw [Equiv.apply_symm_apply, present] at moves
    obtain ⟨found, here, same⟩ := map_eq_some_iff.mp moves.symm
    exact ⟨found, here, same ▸ rfl⟩
  cases found : target.functionFind name with
  | some index =>
    obtain ⟨function, present, named⟩ := Module.functionFind_bound found
    obtain ⟨first, here, same⟩ := origin present
    cases again : source.functionFind name with
    | none =>
      rw [Module.functionFind, findIdx?_eq_none_iff] at again
      exact absurd (again first (mem_of_getElem? here)) (by simp [same, named])
    | some other =>
      obtain ⟨second, there, named'⟩ := Module.functionFind_bound again
      have equal := distinct _ _ _ _ here there (by rw [same, named, named'])
      simp [← equal]
  | none =>
    cases again : source.functionFind name with
    | none => rfl
    | some other =>
      obtain ⟨second, there, named⟩ := Module.functionFind_bound again
      have moves := reordering.functions other
      rw [there] at moves
      rw [Module.functionFind, findIdx?_eq_none_iff] at found
      exact absurd (found _ (mem_of_getElem? moves)) (by simp [named])

theorem callTarget (id : Nat) : target.callTarget (reordering.operation id) =
    (source.callTarget id).map reordering.function := by
  have given : target.attributeGet (reordering.operation id) = source.attributeGet id := by
    funext name
    unfold Module.attributeGet
    rw [reordering.operations]
    cases source.operations[id]? <;> rfl
  unfold Module.callTarget
  rw [given]
  simp only [reordering.functionFind distinct, Option.map_bind, Function.comp_def]

variable {depth : Nat}

omit distinct in
theorem visitWith (block : ∀ block colors, target.blockCalls depth (reordering.block block)
      (reordering.moved colors) = (source.blockCalls depth block colors).map reordering.moved)
    (index : Nat) (colors : Module.Colors) :
    target.visitWith (target.blockCalls depth) (reordering.function index)
      (reordering.moved colors) =
        (source.visitWith (source.blockCalls depth) index colors).map reordering.moved := by
  have here : reordering.moved colors (reordering.function index) = colors index := by simp [moved]
  unfold Module.visitWith
  rw [here]
  cases colors index with
  | gray => rfl
  | black => rfl
  | white =>
    dsimp only
    rw [reordering.functions]
    cases source.functions[index]? with
    | none => rfl
    | some function =>
      have body := block function.body (Function.update colors index .gray)
      simp only [Option.map_some, bind_eq_bind, bind_some, reordering.moved_update, body]
      cases source.blockCalls depth function.body (Function.update colors index .gray) with
      | none => rfl
      | some last => simp [reordering.moved_update]

theorem blockCalls (depth block : Nat) (colors : Module.Colors) :
    target.blockCalls depth (reordering.block block) (reordering.moved colors) =
      (source.blockCalls depth block colors).map reordering.moved := by
  induction depth generalizing block colors with
  | zero => rfl
  | succ depth induction =>
    rw [Module.blockCalls, Module.blockCalls, reordering.blocks]
    cases source.blocks[block]? with
    | none => rfl
    | some found => ?_
    simp only [Option.map_some, bind_eq_bind, bind_some, foldlM_map]
    refine reordering.foldlM_moved (fun colors id => ?_) _ _
    unfold Module.operationCalls
    rw [reordering.operations]
    cases source.operations[id]? with
    | none => rfl
    | some operation => ?_
    have called : target.operationCall depth (target.blockCalls depth) (reordering.operation id)
        { operation with
          block := reordering.block operation.block
          operands := operation.operands.map reordering.value
          results := operation.results.map reordering.value
          regions := operation.regions.map reordering.block } (reordering.moved colors) =
        (source.operationCall depth (source.blockCalls depth) id operation colors).map
          reordering.moved := by
      unfold Module.operationCall
      rw [reordering.callTarget distinct]
      change (if Module.isCall operation then _ else _) = _
      split
      · cases source.callTarget id with
        | none => rfl
        | some callee =>
          simp only [Option.map_some, bind_some]
          split
          · rfl
          · exact reordering.visitWith induction callee colors
      · rfl
    simp only [Option.map_some, bind_eq_bind, bind_some, called]
    cases source.operationCall depth (source.blockCalls depth) id operation colors with
    | none => rfl
    | some colors =>
      simp only [Option.map_some, bind_some, foldlM_map]
      exact reordering.foldlM_moved (fun colors region => induction region colors) _ _

theorem callsVerify : target.callsVerify = (source.callsIn
    ((range target.functions.length).map reordering.function.symm) fun _ => .white).isSome := by
  have walked : ((range target.functions.length).map reordering.function.symm).foldlM
      (fun colors index => target.callVisit (reordering.function index) colors)
      (reordering.moved fun _ => .white) = (source.callsIn
        ((range target.functions.length).map reordering.function.symm) fun _ => .white).map
          reordering.moved :=
    reordering.foldlM_moved (fun colors index =>
      reordering.visitWith (reordering.blockCalls distinct 65) index colors) _ _
  rw [foldlM_map] at walked
  simp only [Equiv.apply_symm_apply] at walked
  rw [← isSome_map, ← walked]
  rfl

omit distinct in
/-- The functions of the other module are those of the module. -/
theorem order_perm : (range target.functions.length).map reordering.function.symm ~
    range source.functions.length := by
  refine (perm_ext_iff_of_nodup (nodup_range.map reordering.function.symm.injective)
    nodup_range).mpr fun index => ?_
  have same := congrArg Option.isSome (reordering.functions index)
  rw [isSome_map, Bool.eq_iff_iff, isSome_getElem?, isSome_getElem?] at same
  simpa [Equiv.symm_apply_eq] using same

end

end Reordering

def chainSymbol (number : Nat) : Bytes := [(97 + number / 26).toUInt8, (97 + number % 26).toUInt8]

def callRequest (symbol : Bytes) : OperationRequest :=
  ⟨coreCallName, [], [], [⟨calleeName, .symbol symbol⟩], 1⟩

def returnRequest : OperationRequest := ⟨ascii "core.return", [], [], [], 1⟩

def chainBody (length : Nat) (module : Module) (number : Nat) : Except Rejection Module := do
  let function ← orReject
    ((module.functionFind (chainSymbol number)).bind (module.functions[·]?))
    .format "call target is unresolved"
  let module ← if number + 1 < length then
      (·.2) <$> module.operationAdd function.body (callRequest (chainSymbol (number + 1)))
    else .ok module
  (·.2) <$> module.operationAdd function.body returnRequest

def chainModule (order : List Nat) : Except Rejection Module := do
  let module ← @moduleOpen coreOnly (ascii "chain") (replicate 64 48) [coreDialect]
  let module ← order.foldlM (fun module number =>
    (·.2) <$> module.functionAdd (chainSymbol number) [] [] 0) module
  (range order.length).foldlM (chainBody order.length) module

/-! ## Every order -/

section

variable {order : List Nat}

/-- The places of the functions in an order. -/
def places (order : List Nat) (whole : order ~ range size) : Equiv.Perm Nat where
  toFun function := if function < size then order.idxOf function else function
  invFun place := order.getD place place
  left_inv function := by
    have length : order.length = size := by simpa using whole.length_eq
    by_cases bound : function < size
    · have member : function ∈ order := whole.mem_iff.mpr (mem_range.mpr bound)
      simp [bound, getD_eq_getElem?_getD, getElem?_idxOf member]
    · simp [bound, getD_eq_getElem?_getD, getElem?_eq_none (by omega : order.length ≤ function)]
  right_inv place := by
    have length : order.length = size := by simpa using whole.length_eq
    have nodup := whole.nodup_iff.mpr nodup_range
    by_cases bound : place < order.length
    · have inside : order[place] < size := mem_range.mp (whole.mem_iff.mp (getElem_mem _))
      simp [getD_eq_getElem?_getD, bound, inside, nodup.idxOf_getElem]
    · simp [getD_eq_getElem?_getD, ← length, bound]

variable (module : Module) (whole : order ~ range module.functions.length)

/-- The module whose functions were added in an order. -/
def Module.arranged : Module :=
  { module with
    functions := order.pmap (fun index bound => module.functions.get ⟨index, bound⟩)
      fun _ member => mem_range.mp (whole.mem_iff.mp member)
    blocks := module.blocks.map fun block =>
      { block with function := places order whole block.function } }

def arranges : Reordering module (module.arranged whole) where
  function := places order whole
  block := Equiv.refl Nat
  operation := Equiv.refl Nat
  value := Equiv.refl Nat
  name := rfl
  sourceIdentity := rfl
  dialects := rfl
  dimensions := rfl
  types := rfl
  functions index := by
    have length : order.length = module.functions.length := by simpa using whole.length_eq
    by_cases bound : index < module.functions.length
    · have member : index ∈ order := whole.mem_iff.mpr (mem_range.mpr bound)
      simp [Module.arranged, places, bound, getElem?_pmap, getElem?_idxOf member]
    · simp [Module.arranged, places, bound, length]
  blocks index := by simp [Module.arranged]
  operations index := by simp [Module.arranged]
  values index := by simp [Module.arranged]

theorem callsVerify_arranged (distinct : module.DistinctSymbols) :
    (module.arranged whole).callsVerify = (module.callsIn order fun _ => .white).isSome := by
  have same : (range (module.arranged whole).functions.length).map
      (arranges module whole).function.symm = order := by
    refine ext_getElem (by simp [Module.arranged]) fun place _ bound => ?_
    simp [arranges, places, getD_eq_getElem?_getD, bound]
  rw [(arranges module whole).callsVerify distinct, same]

end

/-- A caller in front of its callee. -/
def callerFirst : Module where
  name := ascii "pair"
  sourceIdentity := replicate 64 48
  identity := []
  dialects := [coreDialect]
  dimensions := []
  types := []
  values := []
  operations := [⟨0, coreDialect[5], [], [], [], [⟨calleeName, .symbol (chainSymbol 1)⟩]⟩,
      ⟨0, coreDialect[6], [], [], [], []⟩, ⟨1, coreDialect[6], [], [], [], []⟩]
  blocks := [⟨0, none, [0, 1], []⟩, ⟨1, none, [2], []⟩]
  functions := [⟨chainSymbol 0, 0, [], 0⟩, ⟨chainSymbol 1, 1, [], 0⟩]
  storageBytes := 0
  isSealed := false

end Yvex.Ir
