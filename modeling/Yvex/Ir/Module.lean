import Yvex.Ir.Dialect

namespace Yvex.Ir

/-! # Modules and their construction

A module owns arrays of dimensions, types, values, operations, blocks and functions, and every
reference is a position in one of them. The operations of a block form a list through their
`next` fields; here the block holds that list. -/

inductive Scalar where
  | bool
  | index
  | i32
  | i64
  | f16
  | bf16
  | f32
  | f64
deriving DecidableEq

inductive TypeKind where
  | scalar
  | tensor
  | state
  | tuple
  | program
deriving DecidableEq

structure Dimension where
  name : Bytes
  minimum : Nat
  maximum : Nat
  multiple : Nat

structure Extent where
  symbol : Option Nat
  extent : Nat
deriving DecidableEq

/-- `yvex_ir_type`. Tuples and programs have no scalar. -/
structure LogicalType where
  kind : TypeKind
  scalar : Option Scalar
  shape : List Extent
  domain : Bytes
  members : List Nat
deriving DecidableEq

/-- The value of an attribute under its kind. A real is kept as its bits. -/
inductive AttributeValue where
  | u64 (integer : Nat)
  | f64 (bits : Nat)
  | bool (integer : Nat)
  | text (text : Bytes)
  | type (type : Nat)
  | symbol (text : Bytes)

def AttributeValue.kind : AttributeValue → AttributeKind
  | .u64 _ => .u64
  | .f64 _ => .f64
  | .bool _ => .bool
  | .text _ => .text
  | .type _ => .type
  | .symbol _ => .symbol

structure Attribute where
  name : Bytes
  value : AttributeValue

/-- A value without a definition is an argument of its block. -/
structure Value where
  type : Nat
  block : Nat
  definition : Option Nat
  ordinal : Nat

structure Operation where
  block : Nat
  definition : OperationDefinition
  operands : List Nat
  results : List Nat
  regions : List Nat
  attributes : List Attribute

structure Block where
  function : Nat
  parentOperation : Option Nat
  operations : List Nat
  arguments : List Nat

structure Function where
  symbol : Bytes
  body : Nat
  results : List Nat
  effects : Nat

structure Module where
  name : Bytes
  sourceIdentity : Bytes
  identity : Bytes
  dialects : List Dialect
  dimensions : List Dimension
  types : List LogicalType
  values : List Value
  operations : List Operation
  blocks : List Block
  functions : List Function
  storageBytes : Nat
  isSealed : Bool

namespace Module

variable (module : Module)

def valueType (value : Nat) : Option LogicalType :=
  module.values[value]?.bind fun found => module.types[found.type]?

def isState (value : Nat) : Bool := (module.valueType value).any fun type => type.kind == .state

def attributeGet (operation : Nat) (name : Bytes) : Option Attribute :=
  module.operations[operation]?.bind fun found =>
    found.attributes.find? fun candidate => candidate.name == name

def functionFind (name : Bytes) : Option Nat :=
  module.functions.findIdx? fun function => function.symbol == name

/-- `yvex_ir_definition_find`. Version zero selects the first one. -/
def definitionFind (name : Bytes) (version : Nat) : Option OperationDefinition :=
  if nameValid name true then
    module.dialects.flatten.find? fun definition => definition.name == name &&
      definition.version == (if version = 0 then 1 else version)
  else none

end Module

def rankCap : Nat := 8

def aggregateCap : Nat := 16

def extentEqual (left right : Extent) : Bool := left == right

def typeEqual (left right : LogicalType) : Bool :=
  decide (left.shape.length ≤ rankCap) && decide (left.members.length ≤ aggregateCap) &&
    decide (left.domain.length < nameCap) && decide (right.domain.length < nameCap) &&
    left == right

namespace Module

variable (module : Module)

def extentMaximum (extent : Extent) : Option Nat :=
  match extent.symbol with
  | none => if extent.extent = 0 then none else some extent.extent
  | some symbol => module.dimensions[symbol]?.bind fun dimension =>
    if extent.extent = 0 then some dimension.maximum else none

def shapeElements (module : Module) : List Extent → Nat → Option Nat
  | [], elements => some elements
  | extent :: rest, elements => (module.extentMaximum extent).bind fun maximum =>
    if elements ≤ u64Max / maximum then module.shapeElements rest (elements * maximum)
    else none

def membersValid (type : LogicalType) : Bool :=
  type.members.all fun member => module.types[member]?.any fun found =>
    type.kind != .program || found.kind == .tuple

def typeValid (type : LogicalType) : Bool :=
  decide (type.shape.length ≤ rankCap) && decide (type.members.length ≤ aggregateCap) &&
    decide (type.domain.length < nameCap) &&
    if type.kind = .tuple ∨ type.kind = .program then
      type.scalar.isNone && type.shape.isEmpty && type.domain.isEmpty &&
        module.membersValid type && (type.kind != .program || type.members.length == 2)
    else
      type.scalar.isSome && type.members.isEmpty && (type.kind != .scalar || type.shape.isEmpty) &&
        (if type.kind = .state then nameValid type.domain true else type.domain.isEmpty) &&
        (module.shapeElements type.shape 1).isSome

/-- `ir_aggregate_value_valid` with the remaining depth: no tuple of values holds a state. -/
def aggregateValueValid (module : Module) : Nat → Nat → Bool
  | 0, _ => false
  | depth + 1, id => module.types[id]?.any fun type =>
    if type.kind = .tuple then type.members.all (module.aggregateValueValid depth)
    else type.kind != .state

def typesPresent (types : List Nat) : Bool :=
  decide (types.length ≤ objectLimit) && types.all fun id =>
    module.types[id]?.any fun type => type.kind != .tuple || module.aggregateValueValid 65 id

end Module

def storageLimit : Nat := 256 * 1024 * 1024

/-- The sizes of the records on the admitted 64-bit hosts. -/
def dimensionBytes : Nat := 120

def typeBytes : Nat := 312

def valueBytes : Nat := 16

def operationBytes : Nat := 72

def blockBytes : Nat := 32

def functionBytes : Nat := 120

def attributeBytes : Nat := 200

def idBytes : Nat := 4

structure OperationRequest where
  operation : Bytes
  operands : List Nat
  resultTypes : List Nat
  attributes : List Attribute
  version : Nat

def moduleOpen [StandardDialects] (name sourceIdentity : Bytes) (dialects : List Dialect) :
    Except Rejection Module := do
  require (nameValid name false && sha256HexValid sourceIdentity && dialectsValid dialects)
    .invalidArgument "module requires source identity and unique static operation contracts"
  return { name, sourceIdentity, identity := [], dialects, dimensions := [], types := [],
           values := [], operations := [], blocks := [], functions := [], storageBytes := 0,
           isSealed := false }

namespace Module

variable (module : Module)

def dimensionAdd (dimension : Dimension) : Except Rejection (Nat × Module) := do
  require (!module.isSealed && decide (module.storageBytes ≤ storageLimit - dimensionBytes) &&
      nameValid dimension.name false && dimension.minimum != 0 &&
      decide (dimension.minimum ≤ dimension.maximum) && dimension.multiple != 0 &&
      dimension.minimum % dimension.multiple == 0 &&
      dimension.maximum % dimension.multiple == 0)
    .invalidArgument "invalid admitted dimension bounds"
  require (module.dimensions.all fun other => other.name != dimension.name)
    .format "dimension symbol is already defined"
  require (decide (module.dimensions.length + 1 ≤ objectLimit))
    .noMemory "IR dimension allocation failed"
  return (module.dimensions.length,
    { module with
      dimensions := module.dimensions ++ [dimension]
      storageBytes := module.storageBytes + dimensionBytes })

def typeIntern (type : LogicalType) : Except Rejection (Nat × Module) := do
  require (!module.isSealed && module.typeValid type &&
      decide (module.storageBytes ≤ storageLimit - typeBytes))
    .format "invalid logical type or shape"
  match module.types.findIdx? (typeEqual type) with
  | some index => return (index, module)
  | none => do
    require (decide (module.types.length + 1 ≤ objectLimit))
      .noMemory "IR type allocation failed"
    return (module.types.length,
      { module with
        types := module.types ++ [type]
        storageBytes := module.storageBytes + typeBytes })

variable (block : Nat)

def newValues (definition : Option Nat) (types : List Nat) : List Value :=
  types.mapIdx fun ordinal type => { type, block, definition, ordinal }

def nextValues (count : Nat) : List Nat := (List.range count).map (module.values.length + ·)

def blockAdd (function : Nat) (parent : Option Nat) (types : List Nat) :
    Except Rejection (Nat × Module) := do
  let bytes := blockBytes + types.length * (valueBytes + idBytes)
  require (decide (bytes ≤ storageLimit - module.storageBytes))
    .noMemory "IR block exceeds storage budget"
  require (decide (module.blocks.length + 1 ≤ objectLimit) &&
      decide (module.values.length + types.length ≤ objectLimit))
    .noMemory "IR block allocation failed"
  return (module.blocks.length,
    { module with
      blocks := module.blocks ++
        [{ function, parentOperation := parent, operations := [],
           arguments := module.nextValues types.length }]
      values := module.values ++ newValues module.blocks.length none types
      storageBytes := module.storageBytes + bytes })

def functionAdd (symbol : Bytes) (arguments results : List Nat) (effects : Nat) :
    Except Rejection (Nat × Module) := do
  require (!module.isSealed && nameValid symbol false && decide (effects ≤ effectMask) &&
      module.typesPresent arguments && module.typesPresent results &&
      (module.functionFind symbol).isNone)
    .format "invalid or duplicate function signature"
  require (decide (functionBytes + results.length * idBytes + blockBytes +
      arguments.length * (valueBytes + idBytes) ≤ storageLimit - module.storageBytes))
    .noMemory "IR function exceeds storage budget"
  require (decide (module.functions.length + 1 ≤ objectLimit))
    .noMemory "IR function allocation failed"
  let (body, extended) ← module.blockAdd module.functions.length none arguments
  return (module.functions.length,
    { extended with
      functions := extended.functions ++ [{ symbol, body, results, effects }]
      storageBytes := extended.storageBytes + functionBytes + results.length * idBytes })

def terminated (block : Block) : Bool :=
  block.operations.getLast?.any fun last =>
    module.operations[last]?.any fun operation => operation.definition.terminator

variable (request : OperationRequest)

def requestAdmitted : Option (OperationDefinition × Block) := do
  let owner ← module.blocks[block]?
  let definition ← module.definitionFind request.operation request.version
  ensure (!module.isSealed && decide (definition.minimumOperands ≤ request.operands.length) &&
    decide (request.operands.length ≤ definition.maximumOperands) &&
    decide (definition.minimumResults ≤ request.resultTypes.length) &&
    decide (request.resultTypes.length ≤ definition.maximumResults) &&
    decide (request.attributes.length ≤ definition.attributes.length) &&
    module.typesPresent request.resultTypes)
  return (definition, owner)

def operationAdd : Except Rejection (Nat × Module) := do
  let (definition, owner) ← orReject (module.requestAdmitted block request)
    .format "operation is unknown or has invalid arity/types"
  let bytes := operationBytes + request.operands.length * idBytes +
    request.resultTypes.length * (idBytes + valueBytes) +
    request.attributes.length * attributeBytes
  require (decide (bytes ≤ storageLimit - module.storageBytes))
    .noMemory "IR operation exceeds storage budget"
  require (!module.terminated owner) .format "operation cannot follow a block terminator"
  require (request.operands.all fun operand => decide (operand < module.values.length))
    .format "operand has no definition"
  require (decide (module.operations.length + 1 ≤ objectLimit) &&
      decide (module.values.length + request.resultTypes.length ≤ objectLimit))
    .noMemory "IR operation allocation failed"
  let id := module.operations.length
  return (id,
    { module with
      operations := module.operations ++
        [{ block, definition, operands := request.operands,
           results := module.nextValues request.resultTypes.length, regions := [],
           attributes := request.attributes }]
      values := module.values ++ newValues block (some id) request.resultTypes
      blocks := module.blocks.set block { owner with operations := owner.operations ++ [id] }
      storageBytes := module.storageBytes + bytes })

def regionAdd (operation : Nat) (arguments : List Nat) : Except Rejection (Nat × Module) := do
  let owner ← orReject (module.operations[operation]?)
    .format "invalid region arguments or owner"
  let block ← orReject (module.blocks[owner.block]?)
    .format "invalid region arguments or owner"
  require (!module.isSealed && module.typesPresent arguments)
    .format "invalid region arguments or owner"
  require (decide (owner.regions.length < owner.definition.regions))
    .format "operation region population exceeded"
  let (region, extended) ← module.blockAdd block.function (some operation) arguments
  return (region,
    { extended with
      operations := extended.operations.set operation
        { owner with regions := owner.regions ++ [region] } })

end Module

end Yvex.Ir
