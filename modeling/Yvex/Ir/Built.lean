import Yvex.Ir.Module

namespace Yvex.Ir

open List Yvex.Except Option

/-! # Built modules

Modules come into being through the constructors only. They number their operations as they
are added and append each one to its block, so the numbers rise along every block and every
value stands where it is defined. -/

section

variable [StandardDialects]

/-- The modules that calls of the constructors lead to. -/
inductive Built : Module → Prop
  | opened {name sourceIdentity : Bytes} {dialects : List Dialect} {module : Module} :
      moduleOpen name sourceIdentity dialects = .ok module → Built module
  | dimensionAdd {module next : Module} {dimension : Dimension} {id : Nat} : Built module →
      module.dimensionAdd dimension = .ok (id, next) → Built next
  | typeIntern {module next : Module} {type : LogicalType} {id : Nat} : Built module →
      module.typeIntern type = .ok (id, next) → Built next
  | functionAdd {module next : Module} {symbol : Bytes} {arguments results : List Nat}
      {effects id : Nat} : Built module →
      module.functionAdd symbol arguments results effects = .ok (id, next) → Built next
  | operationAdd {module next : Module} {block : Nat} {request : OperationRequest} {id : Nat} :
      Built module → module.operationAdd block request = .ok (id, next) → Built next
  | regionAdd {module next : Module} {operation : Nat} {arguments : List Nat} {id : Nat} :
      Built module → module.regionAdd operation arguments = .ok (id, next) → Built next
  | sealed {module : Module} {identity : Bytes} : Built module →
      Built { module with identity, isSealed := true }

end

inductive Construction where
  | dimension (dimension : Dimension)
  | type (type : LogicalType)
  | function (symbol : Bytes) (arguments results : List Nat) (effects : Nat)
  | operation (block : Nat) (request : OperationRequest)
  | region (operation : Nat) (arguments : List Nat)

def Module.construct (module : Module) : Construction → Except Rejection (Nat × Module)
  | .dimension dimension => module.dimensionAdd dimension
  | .type type => module.typeIntern type
  | .function symbol arguments results effects =>
    module.functionAdd symbol arguments results effects
  | .operation block request => module.operationAdd block request
  | .region operation arguments => module.regionAdd operation arguments

def Module.constructAll : Module → List Construction → Except Rejection Module
  | module, [] => .ok module
  | module, first :: rest => do
    let (_, module) ← module.construct first
    constructAll module rest

section

variable [StandardDialects] {module next : Module}

def buildModule (name sourceIdentity : Bytes) (dialects : List Dialect)
    (script : List Construction) : Except Rejection Module := do
  let module ← moduleOpen name sourceIdentity dialects
  module.constructAll script

theorem Built.construct {id : Nat} (built : Built module)
    (added : module.construct construction = .ok (id, next)) : Built next := by
  cases construction with
  | dimension dimension => exact built.dimensionAdd added
  | type type => exact built.typeIntern added
  | function symbol arguments results effects => exact built.functionAdd added
  | operation block request => exact built.operationAdd added
  | region operation arguments => exact built.regionAdd added

theorem Built.constructAll (built : Built module)
    (added : module.constructAll script = .ok next) : Built next := by
  induction script generalizing module with
  | nil =>
    cases added
    exact built
  | cons first rest induction => ?_
  unfold Module.constructAll at added
  simp only [bind_eq_ok, Prod.exists] at added
  rcases added with ⟨_, middle, constructed, added⟩
  exact induction (built.construct constructed) added

theorem built_of_buildModule {name sourceIdentity : Bytes} {dialects : List Dialect}
    (built : buildModule name sourceIdentity dialects script = .ok module) : Built module := by
  unfold buildModule at built
  rw [bind_eq_ok] at built
  rcases built with ⟨first, opened, added⟩
  exact (Built.opened opened).constructAll added

end

structure Placed (module : Module) : Prop where
  rising : ∀ (block : Nat) (found : Block), module.blocks[block]? = some found →
    found.operations.Pairwise (· < ·)
  listed : ∀ (block : Nat) (found : Block), module.blocks[block]? = some found →
    ∀ id ∈ found.operations, ∃ operation, module.operations[id]? = some operation ∧
      operation.block = block
  placed : ∀ (id : Nat) (operation : Operation), module.operations[id]? = some operation →
    ∃ found, module.blocks[operation.block]? = some found ∧ id ∈ found.operations
  defined : ∀ (value : Nat) (found : Value), module.values[value]? = some found →
    ∀ definition, found.definition = some definition →
      ∃ operation, module.operations[definition]? = some operation ∧
        operation.block = found.block ∧ value ∈ operation.results
  argument : ∀ (value : Nat) (found : Value), module.values[value]? = some found →
    found.definition = none →
      ∃ block, module.blocks[found.block]? = some block ∧ value ∈ block.arguments

namespace Module

variable {module : Module} {block : Nat} {types : List Nat} {found : Value}

theorem newValues_getElem (held : (newValues block definition types)[index]? = some found) :
    found.block = block ∧ found.definition = definition ∧ index < types.length := by
  unfold newValues at held
  rw [getElem?_mapIdx, map_eq_some_iff] at held
  rcases held with ⟨type, typed, rfl⟩
  exact ⟨rfl, rfl, index_lt typed⟩

theorem mem_nextValues {count : Nat} : value ∈ module.nextValues count ↔
      module.values.length ≤ value ∧ value < module.values.length + count := by
  unfold nextValues
  rw [List.mem_map]
  constructor
  · rintro ⟨index, member, rfl⟩
    have bound := mem_range.mp member
    omega
  · rintro ⟨lower, upper⟩
    exact ⟨value - module.values.length, mem_range.mpr (by omega), by omega⟩

theorem values_cases
    (held : (module.values ++ newValues block definition types)[value]? = some found) :
    module.values[value]? = some found ∨ (found.block = block ∧ found.definition = definition ∧
        value ∈ module.nextValues types.length) := by
  by_cases old : value < module.values.length
  · rw [getElem?_append_left old] at held
    exact .inl held
  · rw [getElem?_append_right (le_of_not_gt old)] at held
    rcases newValues_getElem held with ⟨sameBlock, sameDefinition, bound⟩
    exact .inr ⟨sameBlock, sameDefinition, mem_nextValues.mpr ⟨by omega, by omega⟩⟩

variable {id : Nat} {next : Module}

/-- What `ir_block_add` writes. -/
theorem blockAdd_eq (added : module.blockAdd function parent types = .ok (id, next)) :
    id = module.blocks.length ∧ ∃ storage, next = { module with
      blocks := module.blocks ++
        [{ function, parentOperation := parent, operations := [],
           arguments := module.nextValues types.length }]
      values := module.values ++ newValues module.blocks.length none types
      storageBytes := storage } := by
  unfold blockAdd at added
  simp only [bind_eq_ok] at added
  rcases added with ⟨_, _, _, _, rfl, rfl⟩
  exact ⟨rfl, _, rfl⟩

/-- What `yvex_ir_type_intern` writes. -/
theorem typeIntern_eq (added : module.typeIntern type = .ok (id, next)) :
    (module.types.findIdx? (typeEqual type) = some id ∧ next = module) ∨
      (module.types.findIdx? (typeEqual type) = none ∧ ∃ storage, next = { module with
        types := module.types ++ [type]
        storageBytes := storage }) := by
  unfold typeIntern at added
  rw [bind_eq_ok] at added
  rcases added with ⟨_, _, added⟩
  cases present : module.types.findIdx? (typeEqual type) with
  | some index =>
    rw [present] at added
    rcases added with ⟨rfl, rfl⟩
    exact .inl ⟨rfl, rfl⟩
  | none => ?_
  rw [present] at added
  simp only [bind_eq_ok] at added
  rcases added with ⟨_, _, _, rfl⟩
  exact .inr ⟨rfl, _, rfl⟩

/-- What `yvex_ir_function_add` writes. -/
theorem functionAdd_eq
    (added : module.functionAdd symbol arguments results effects = .ok (id, next)) :
    ∃ body extended storage,
      module.blockAdd module.functions.length none arguments = .ok (body, extended) ∧
      id = module.functions.length ∧
      next = { extended with
        functions := extended.functions ++ [{ symbol, body, results, effects }]
        storageBytes := storage } := by
  unfold functionAdd at added
  simp only [bind_eq_ok, Prod.exists] at added
  rcases added with ⟨_, _, _, _, _, _, body, extended, appended, rfl, rfl⟩
  exact ⟨body, extended, _, appended, rfl, rfl⟩

variable {request : OperationRequest}

theorem requestAdmitted_eq {definition : OperationDefinition}
    (admitted : module.requestAdmitted block request = some (definition, owner)) :
    module.blocks[block]? = some owner ∧
      module.definitionFind request.operation request.version = some definition ∧
      request.attributes.length ≤ definition.attributes.length ∧
      module.typesPresent request.resultTypes = true ∧ module.isSealed = false := by
  unfold requestAdmitted at admitted
  simp only [bind_eq_some, ensure_eq_some, Bool.and_eq_true,
    decide_eq_true_eq, Bool.not_eq_true'] at admitted
  rcases admitted with
    ⟨_, block, _, found, _, ⟨⟨⟨⟨⟨⟨unsealed, _⟩, _⟩, _⟩, _⟩, fewer⟩, types⟩, rfl, rfl⟩
  exact ⟨block, found, fewer, types, unsealed⟩

/-- What `yvex_ir_operation_add` writes. -/
theorem operationAdd_eq (added : module.operationAdd block request = .ok (id, next)) :
    ∃ definition owner storage, module.requestAdmitted block request = some (definition, owner) ∧
      (∀ operand ∈ request.operands, operand < module.values.length) ∧
      id = module.operations.length ∧
      next = { module with
        operations := module.operations ++
          [{ block, definition, operands := request.operands,
             results := module.nextValues request.resultTypes.length, regions := [],
             attributes := request.attributes }]
        values := module.values ++
          newValues block (some module.operations.length) request.resultTypes
        blocks := module.blocks.set block
          { owner with operations := owner.operations ++ [module.operations.length] }
        storageBytes := storage } := by
  unfold operationAdd at added
  simp only [bind_eq_ok, require_eq_ok, orReject_eq_ok, Prod.exists] at added
  rcases added with ⟨definition, owner, admitted, _, _, _, _, _, bounded, _, _, rfl, rfl⟩
  refine ⟨definition, owner, _, admitted, ?_, rfl, rfl⟩
  intro operand member
  simpa using all_eq_true.mp bounded operand member

/-- What `yvex_ir_region_add` writes. -/
theorem regionAdd_eq (added : module.regionAdd operation arguments = .ok (id, next)) :
    ∃ owner block extended, module.operations[operation]? = some owner ∧
      module.blocks[owner.block]? = some block ∧
      owner.regions.length < owner.definition.regions ∧
      module.typesPresent arguments = true ∧
      module.blockAdd block.function (some operation) arguments = .ok (id, extended) ∧
      next = { extended with
        operations := extended.operations.set operation
          { owner with regions := owner.regions ++ [id] } } := by
  unfold regionAdd at added
  simp only [bind_eq_ok, require_eq_ok, orReject_eq_ok, Prod.exists,
    decide_eq_true_eq, Bool.and_eq_true] at added
  rcases added with ⟨owner, held, block, found, _, ⟨_, types⟩, _, room, region, extended,
    appended, rfl, rfl⟩
  exact ⟨owner, block, extended, held, found, room, types, appended, rfl⟩

end Module

variable {items : List α} {found : α} {index : Nat} {last : α}

theorem getElem?_concat (held : (items ++ [last])[index]? = some found) :
    items[index]? = some found ∨ (index = items.length ∧ found = last) := by
  grind

theorem getElem?_concat_of_some (held : items[index]? = some found) :
    (items ++ [last])[index]? = some found := by
  rw [List.getElem?_append_left (index_lt held)]
  exact held

theorem getElem?_set_cases (held : (items.set place item)[index]? = some found) :
    (index = place ∧ found = item) ∨ (index ≠ place ∧ items[index]? = some found) := by
  grind

namespace Placed

variable {module next : Module} {id : Nat}

section

variable (placed : Placed module)

include placed

theorem blockAdd
    (added : module.blockAdd function parent types = .ok (id, next)) : Placed next := by
  rcases Module.blockAdd_eq added with ⟨rfl, storage, rfl⟩
  constructor
  · intro block found held
    rcases getElem?_concat held with held | ⟨_, rfl⟩
    · exact placed.rising block found held
    · exact List.Pairwise.nil
  · grind [cases Placed]
  · grind [cases Placed]
  · intro value found held definition defined
    rcases Module.values_cases held with held | ⟨_, argument, _⟩
    · exact placed.defined value found held definition defined
    · rw [argument] at defined
      cases defined
  · intro value found held argument
    rcases Module.values_cases held with held | ⟨block, _, member⟩
    · grind [cases Placed]
    · rw [block]
      exact ⟨_, getElem?_concat_length, member⟩

theorem operationAdd
    (added : module.operationAdd block request = .ok (id, next)) : Placed next := by
  rcases Module.operationAdd_eq added with ⟨definition, owner, storage, admitted, _, rfl, rfl⟩
  have held := (Module.requestAdmitted_eq admitted).1
  have bound : block < module.blocks.length := index_lt held
  have older : ∀ id ∈ owner.operations, id < module.operations.length := by
    grind [cases Placed]
  constructor
  · grind [cases Placed]
  · intro index found there id member
    rcases getElem?_set_cases there with ⟨rfl, rfl⟩ | ⟨_, there⟩
    · rcases mem_append.mp member with member | isLast
      · grind [cases Placed]
      · rw [mem_singleton.mp isLast]
        exact ⟨_, getElem?_concat_length, rfl⟩
    · rcases placed.listed index found there id member with ⟨operation, there, same⟩
      exact ⟨operation, getElem?_concat_of_some there, same⟩
  · intro id operation there
    rcases getElem?_concat there with there | ⟨rfl, rfl⟩
    · rcases placed.placed id operation there with ⟨found, inBlock, member⟩
      by_cases same : operation.block = block
      · rw [same, held, some.injEq] at inBlock
        subst inBlock
        rw [same]
        exact ⟨_, getElem?_set_self bound, mem_append_left _ member⟩
      · exact ⟨found, by rw [getElem?_set_ne (Ne.symm same)]; exact inBlock, member⟩
    · exact ⟨_, getElem?_set_self bound, by simp⟩
  · intro value found there definition defined
    rcases Module.values_cases there with there | ⟨inBlock, isNew, member⟩
    · grind [cases Placed]
    · rw [isNew, some.injEq] at defined
      subst defined
      exact ⟨_, getElem?_concat_length, inBlock.symm, member⟩
  · intro value found there argument
    rcases Module.values_cases there with there | ⟨_, isNew, _⟩
    · grind [cases Placed]
    · rw [isNew] at argument
      cases argument

theorem regionAdd
    (added : module.regionAdd operation arguments = .ok (id, next)) : Placed next := by
  rcases Module.regionAdd_eq added with ⟨owner, block, extended, held, _, _, _, appended, rfl⟩
  have kept := placed.blockAdd appended
  rcases Module.blockAdd_eq appended with ⟨rfl, storage, rfl⟩
  have bound : operation < module.operations.length := index_lt held
  have forward : ∀ {index : Nat} {found : Operation}, module.operations[index]? = some found →
      ∃ now, (module.operations.set operation
          { owner with regions := owner.regions ++ [module.blocks.length] })[index]? = some now ∧
        now.block = found.block ∧ now.results = found.results := by
    grind
  constructor
  · exact kept.rising
  · grind [cases Placed]
  · grind [cases Placed]
  · grind [cases Placed]
  · exact kept.argument

theorem of_same (blocks : next.blocks = module.blocks)
    (operations : next.operations = module.operations) (values : next.values = module.values) :
    Placed next := by
  constructor
  · rw [blocks]
    exact placed.rising
  · rw [blocks, operations]
    exact placed.listed
  · rw [blocks, operations]
    exact placed.placed
  · rw [operations, values]
    exact placed.defined
  · rw [blocks, values]
    exact placed.argument

end

end Placed

theorem Built.placed [StandardDialects] (built : Built module) : Placed module := by
  induction built with
  | opened opened =>
    unfold moduleOpen at opened
    simp only [bind_eq_ok, pure_eq_ok] at opened
    rcases opened with ⟨_, _, rfl⟩
    constructor <;> intro index found held <;> cases held
  | dimensionAdd _ added induction =>
    unfold Module.dimensionAdd at added
    simp only [bind_eq_ok] at added
    rcases added with ⟨_, _, _, _, _, _, rfl, rfl⟩
    exact induction.of_same rfl rfl rfl
  | typeIntern _ added induction =>
    rcases Module.typeIntern_eq added with ⟨_, same⟩ | ⟨_, same⟩
    · rw [same]
      exact induction
    · rcases same with ⟨storage, rfl⟩
      exact induction.of_same rfl rfl rfl
  | functionAdd _ added induction =>
    rcases Module.functionAdd_eq added with ⟨body, extended, storage, appended, rfl, rfl⟩
    exact (induction.blockAdd appended).of_same rfl rfl rfl
  | operationAdd _ added induction => exact induction.operationAdd added
  | regionAdd _ added induction => exact induction.regionAdd added
  | sealed _ induction => exact induction.of_same rfl rfl rfl

end Yvex.Ir
