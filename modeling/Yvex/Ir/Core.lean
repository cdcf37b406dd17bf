import Yvex.Ir.Module

namespace Yvex.Ir

/-! # The callbacks of the core dialect

Each contract names a function that checks an operation beyond its counts. The verifier calls
it after the attributes, operands and results of the operation have been checked. -/

section

variable (item : Attribute)

def Attribute.text? : Option Bytes :=
  match item.value with
  | .text text => some text
  | .symbol text => some text
  | _ => none

def Attribute.symbol? : Option Bytes :=
  match item.value with
  | .symbol text => some text
  | _ => none

def Attribute.integer? : Option Nat :=
  match item.value with
  | .u64 integer => some integer
  | .bool integer => some integer
  | _ => none

end

def coreCallName : Bytes := ascii "core.call"

def coreLoopName : Bytes := ascii "core.loop"

def coreIfName : Bytes := ascii "core.if"

def coreParameterName : Bytes := ascii "core.parameter"

def calleeName : Bytes := ascii "callee"

namespace Module

variable (module : Module)

def typeAt (value : Nat) : Option Nat := module.values[value]?.map (·.type)

def typesAt (values : List Nat) : List (Option Nat) := values.map module.typeAt

variable (operation : Operation) (index : Nat)

def coreOperandType : Option Nat := operation.operands[index]?.bind module.typeAt

def coreResultType : Option Nat := operation.results[index]?.bind module.typeAt

def operandLogicalType : Option LogicalType :=
  (module.coreOperandType operation index).bind fun type => module.types[type]?

def resultLogicalType : Option LogicalType :=
  (module.coreResultType operation index).bind fun type => module.types[type]?

def coreIdentity : Except Rejection Unit :=
  require (module.coreOperandType operation 0 == module.coreResultType operation 0)
    .format "identity cannot change a value type"

def staticExtent (extent : Extent) : Bool := extent.symbol.isNone && extent.extent != 0

/-- `core_parameter`. The second version declares a bank whose outer axis counts experts. -/
def coreParameter (id : Nat) (operation : Operation) : Except Rejection Unit := do
  let type ← orReject (module.resultLogicalType operation 0)
    .format "parameter requires logical tensor and source identity"
  let source := (module.attributeGet id (ascii "source")).bind (·.text?)
  require (type.kind == .tensor && source.any sha256HexValid)
    .format "parameter requires logical tensor and source identity"
  if operation.definition.version = 2 then
    let count := (module.attributeGet id (ascii "expert_count")).bind (·.integer?)
    require (count.any (· != 0) && type.shape.length == 3 &&
        (type.shape[0]?.any fun outer => outer.symbol.isNone && some outer.extent == count) &&
        (type.scalar == some .bf16 || type.scalar == some .f32))
      .format "expert bank requires exact outer-axis geometry"
    require (type.shape.tail.all staticExtent)
      .format "expert bank cannot have dynamic parameter axes"

def coreIndex : Except Rejection Unit :=
  require ((module.resultLogicalType operation 0).any fun type =>
      type.kind == .scalar && type.scalar == some .index)
    .format "index literal requires index type"

def coreObserve : Except Rejection Unit :=
  require ((module.operandLogicalType operation 0).any fun type => type.kind == .tensor &&
      (type.scalar == some .f32 || type.scalar == some .bf16))
    .format "observation requires a floating computational tensor"

def coreReturn : Except Rejection Unit := do
  let block ← orReject (module.blocks[operation.block]?)
    .format "return does not match function signature"
  let function ← orReject (module.functions[block.function]?)
    .format "return does not match function signature"
  require (block.parentOperation.isNone && operation.operands.length == function.results.length)
    .format "return does not match function signature"
  require (module.typesAt operation.operands == function.results.map some)
    .format "return type mismatch"

def coreYield : Except Rejection Unit := do
  let block ← orReject (module.blocks[operation.block]?)
    .format "yield does not match region result signature"
  let parent ← orReject (block.parentOperation.bind fun parent => module.operations[parent]?)
    .format "yield does not match region result signature"
  require (operation.operands.length == parent.results.length)
    .format "yield does not match region result signature"
  require (module.typesAt operation.operands == module.typesAt parent.results)
    .format "yield type mismatch"

def callTarget (id : Nat) : Option Nat :=
  (module.attributeGet id calleeName).bind fun callee => callee.text?.bind module.functionFind

def coreCall (id : Nat) (operation : Operation) : Except Rejection Unit := do
  let target ← orReject (module.callTarget id) .format "call target is unresolved"
  let function ← orReject (module.functions[target]?) .format "call target is unresolved"
  let body ← orReject (module.blocks[function.body]?) .format "call target is unresolved"
  require (operation.operands.length == body.arguments.length &&
      operation.results.length == function.results.length)
    .format "call signature arity mismatch"
  require (module.typesAt operation.operands == module.typesAt body.arguments)
    .format "call argument type mismatch"
  require (module.typesAt operation.results == function.results.map some)
    .format "call result type mismatch"

def regionOperands : List Nat :=
  if operation.definition.name = coreLoopName then operation.operands
  else operation.operands.tail

/-- The check of one region in `core_regions`. -/
def coreRegion (region : Nat) : Except Rejection Unit := do
  let body ← orReject (module.blocks[region]?) .format "region argument arity mismatch"
  require (body.arguments.length == (regionOperands operation).length)
    .format "region argument arity mismatch"
  require (module.typesAt body.arguments == module.typesAt (regionOperands operation))
    .format "region argument type mismatch"

def coreRegions : Except Rejection Unit := do
  let loop := operation.definition.name == coreLoopName
  let control ← orReject (module.operandLogicalType operation 0)
    .format "region control or loop-carried arity is invalid"
  require (control.kind == .scalar && control.scalar == some (if loop then .index else .bool) &&
      (!loop || operation.results.length + 1 == operation.operands.length))
    .format "region control or loop-carried arity is invalid"
  operation.regions.forM (module.coreRegion operation)
  require (!loop || module.typesAt operation.results == module.typesAt operation.operands.tail)
    .format "loop-carried type changes across iteration"

def sameGeometry (state tensor : LogicalType) : Bool :=
  state.kind == .state && tensor.kind == .tensor && state.scalar == tensor.scalar &&
    state.shape.length == tensor.shape.length

def coreStateRead : Except Rejection Unit := do
  let state ← orReject (module.operandLogicalType operation 0)
    .format "state read requires matching logical tensor geometry"
  let result ← orReject (module.resultLogicalType operation 0)
    .format "state read requires matching logical tensor geometry"
  require (sameGeometry state result)
    .format "state read requires matching logical tensor geometry"
  require ((state.shape.zip result.shape).all fun (left, right) => extentEqual left right)
    .format "state read shape mismatch"

def coreStateUpdate : Except Rejection Unit := do
  let state ← orReject (module.operandLogicalType operation 0)
    .format "state update changes semantic domain or type"
  let value ← orReject (module.operandLogicalType operation 1)
    .format "state update changes semantic domain or type"
  require (sameGeometry state value &&
      module.coreResultType operation 0 == module.coreOperandType operation 0)
    .format "state update changes semantic domain or type"
  require ((state.shape.zip value.shape).all fun (left, right) => extentEqual left right)
    .format "state update shape mismatch"

end Module

/-- The callbacks of the dialects outside the core. -/
class Callbacks where
  verify : Nat → Module → Nat → Except Rejection Unit

@[reducible] def noCallbacks : Callbacks := ⟨fun _ _ _ => .ok ()⟩

/-- The call of `definition->verify`. -/
def Module.callbackVerify [Callbacks] (module : Module) (id : Nat) (operation : Operation) :
    Except Rejection Unit :=
  match operation.definition.verify with
  | .observe => module.coreObserve operation
  | .identity => module.coreIdentity operation
  | .parameter => module.coreParameter id operation
  | .index => module.coreIndex operation
  | .call => module.coreCall id operation
  | .return => module.coreReturn operation
  | .yield => module.coreYield operation
  | .regions => module.coreRegions operation
  | .stateRead => module.coreStateRead operation
  | .stateUpdate => module.coreStateUpdate operation
  | .extension number => Callbacks.verify number module id

end Yvex.Ir
