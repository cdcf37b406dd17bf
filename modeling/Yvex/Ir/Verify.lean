import Mathlib.Data.List.Sort
import Yvex.Ir.Core

namespace Yvex.Ir

/-! # Verification

One pass over the blocks of every function checks ownership, dominance, effects and the
consumption of state versions; a second pass colours the call graph. The depth counters of the
sources are kept as the depth that remains. -/

namespace Module

variable (module : Module)

/-- `isfinite` on the bits of a double. -/
def realFinite (bits : Nat) : Bool := bits / 2 ^ 52 % 2 ^ 11 != 2 ^ 11 - 1

def attributeValid (item : Attribute) : Bool := nameValid item.name false &&
    match item.value with
    | .u64 _ => true
    | .f64 bits => realFinite bits
    | .bool integer => decide (integer ≤ 1)
    | .type type => decide (type < module.types.length)
    | .symbol text => nameValid text false
    | .text text => decide (text.length < nameCap)

variable (operation : Operation)

def attributesVerify : Bool := (operation.attributes.all fun item => module.attributeValid item &&
      (operation.definition.attributes.find? (·.name == item.name)).any
        fun rule => item.value.kind == rule.kind) &&
    decide (operation.attributes.map (·.name)).Nodup &&
    operation.definition.attributes.all fun rule =>
      !rule.required || operation.attributes.any (·.name == rule.name)

def isCall : Bool := operation.definition.name == coreCallName

def calleeFunction : Option Function := do
  let callee ← operation.attributes.find? fun item => item.name == calleeName
  let text ← callee.symbol?
  let target ← module.functionFind text
  module.functions[target]?

/-- `yvex_ir_operation_effects` of an operation the module holds. -/
def operationEffects : Nat :=
  if isCall operation then (module.calleeFunction operation).elim effectMask (·.effects)
  else operation.definition.effects

def hasEffect (effects effect : Nat) : Bool := effects &&& effect != 0

/-- `ir_visible` with the remaining depth: the walk from the use to the block of the value. -/
def visible (value : Nat) (found : Value) : Nat → Nat → Bool
  | 0, _ => false
  | depth + 1, use =>
    match module.operations[use]? with
    | none => false
    | some operation =>
      match module.blocks[operation.block]? with
      | none => false
      | some block =>
        if operation.block = found.block then
          found.definition.all fun definition => decide (definition < use)
        -- State enters regions through explicit block arguments, never capture.
        else if module.isState value then false
        else
          match block.parentOperation with
          | none => false
          | some parent => visible value found depth parent

def operandVisible (use value : Nat) : Bool :=
  module.values[value]?.any fun found => module.visible value found 64 use

def transfers : Bool :=
  operation.definition.terminator || operation.definition.regions != 0 || isCall operation

def consumes : Bool :=
  hasEffect (module.operationEffects operation) writeState || transfers operation

/-- The operation consumes the state version: it writes state, ends a block, has regions or is
a call. -/
def ConsumedBy (id value : Nat) : Prop :=
  ∃ operation, module.operations[id]? = some operation ∧ module.consumes operation = true ∧
    value ∈ operation.operands ∧ module.isState value = true

variable (consumed : Nat → Bool)

/-- The check of one operand in `ir_state_verify`, with the operands before it. -/
def stateOperandVerify (earlier : List Nat) (value : Nat) : Except Rejection Unit :=
  if module.isState value then do
    require (!consumed value && (transfers operation ||
        hasEffect (module.operationEffects operation) readState))
      .format "state version is stale or read effect is undeclared"
    require (!module.consumes operation || !earlier.contains value)
      .format "state version cannot be consumed twice"
  else .ok ()

/-- The operand loop of `ir_state_verify`. -/
def stateOperandsVerify (operation : Operation) (consumed : Nat → Bool) :
    List Nat → List Nat → Except Rejection Unit
  | _, [] => .ok ()
  | earlier, value :: rest => do
    module.stateOperandVerify operation consumed earlier value
    stateOperandsVerify operation consumed (earlier ++ [value]) rest

def consume (value : Nat) : Nat → Bool :=
  if module.isState value then Function.update consumed value true else consumed

def stateVerify : Except Rejection (Nat → Bool) := do
  module.stateOperandsVerify operation consumed [] operation.operands
  require (operation.results.all fun result => !module.isState result || module.consumes operation)
    .format "state result requires a declared write effect"
  return if module.consumes operation then operation.operands.foldl module.consume consumed
    else consumed

/-- The `visited` and `consumed` arrays. -/
structure Marks where
  visited : Nat → Bool
  consumed : Nat → Bool

variable (block : Nat) (definition : Option Nat)

def owned (value ordinal : Nat) : Bool :=
  module.values[value]?.any fun found =>
    decide (found.type < module.types.length) && found.block == block &&
      found.definition == definition && found.ordinal == ordinal

def allOwned (values : List Nat) : Bool :=
  values.zipIdx.all fun (value, ordinal) => module.owned block definition value ordinal

def operationReason (id : Nat) (operation : Option Operation) : String :=
  let name := operation.elim "unresolved" fun found =>
    String.ofList (found.definition.name.map fun letter => Char.ofNat letter.toNat)
  "operation " ++ toString id ++ " (" ++ name ++ "): ownership, attributes or effects are invalid"

def operationOwned (function : Function) (operation : Operation) : Bool :=
  operation.block == block && operation.regions.length == operation.definition.regions &&
    module.attributesVerify operation &&
    (module.operationEffects operation &&& function.effects) == module.operationEffects operation

def operationVerify [Callbacks] (block : Nat) (function : Function) (id : Nat) (marks : Marks) :
    Except Rejection (Operation × Marks) := do
  let operation ← orReject (module.operations[id]?) .format (operationReason id none)
  require (!marks.visited id && module.operationOwned block function operation)
    .format (operationReason id (some operation))
  require (operation.operands.all (module.operandVisible id))
    .format "operand definition does not dominate this use"
  require (module.allOwned block (some id) operation.results)
    .format "operation result has multiple or invalid definitions"
  module.callbackVerify id operation
  let consumed ← module.stateVerify operation marks.consumed
  return (operation, { visited := Function.update marks.visited id true, consumed })

/-- The region loop of `ir_block_verify`. -/
def regionsVerify (verifyRegion : Nat → Marks → Except Rejection Marks) (function id : Nat) :
    List Nat → Marks → Except Rejection Marks
  | [], marks => .ok marks
  | region :: rest, marks => do
    require (module.blocks[region]?.any fun found =>
        found.parentOperation == some id && found.function == function)
      .format "region has invalid parent ownership"
    let marks ← verifyRegion region marks
    regionsVerify verifyRegion function id rest marks

/-- The operation loop of `ir_block_verify`. -/
def operationsVerify [Callbacks] (verifyRegion : Nat → Marks → Except Rejection Marks)
    (block : Nat) (found : Block) (function : Function) :
    List Nat → Marks → Except Rejection Marks
  | [], marks => .ok marks
  | id :: rest, marks => do
    let (operation, marks) ← module.operationVerify block function id marks
    let marks ← module.regionsVerify verifyRegion found.function id operation.regions marks
    require (!operation.definition.terminator || rest.isEmpty)
      .format "block terminator must be last"
    operationsVerify verifyRegion block found function rest marks

/-- `ir_block_verify` with the remaining depth. -/
def blockVerify [Callbacks] : Nat → Nat → Marks → Except Rejection Marks
  | 0, _, _ => .error ⟨.format, "block is missing a body or exceeds nesting limit"⟩
  | depth + 1, block, marks => do
    let found ← orReject (module.blocks[block]?)
      .format "block is missing a body or exceeds nesting limit"
    let function ← orReject (module.functions[found.function]?)
      .format "block is missing a body or exceeds nesting limit"
    require (!found.operations.isEmpty)
      .format "block is missing a body or exceeds nesting limit"
    require (module.allOwned block none found.arguments)
      .format "block argument has invalid ownership"
    let marks ← module.operationsVerify (blockVerify depth) block found function
      found.operations marks
    require (module.terminated found) .format "block has no unique final terminator"
    return marks

inductive Color where
  | white
  | gray
  | black

abbrev Colors := Nat → Color

/-- `ir_call_visit` within the depth limit, over the pass through a body. -/
def visitWith (calls : Nat → Colors → Option Colors) (function : Nat) (colors : Colors) :
    Option Colors :=
  match colors function with
  | .gray => none
  | .black => some colors
  | .white => do
    let found ← module.functions[function]?
    let colors ← calls found.body (Function.update colors function .gray)
    return Function.update colors function .black

def operationCall (depth : Nat) (calls : Nat → Colors → Option Colors) (id : Nat)
    (operation : Operation) (colors : Colors) : Option Colors :=
  if isCall operation then
    (module.callTarget id).bind fun target =>
      if depth = 0 then none else module.visitWith calls target colors
  else some colors

def operationCalls (depth : Nat) (calls : Nat → Colors → Option Colors) (id : Nat)
    (colors : Colors) : Option Colors := do
  let operation ← module.operations[id]?
  let colors ← module.operationCall depth calls id operation colors
  operation.regions.foldlM (fun colors region => calls region colors) colors

/-- `ir_block_calls` with the remaining depth. -/
def blockCalls : Nat → Nat → Colors → Option Colors
  | 0, _, _ => none
  | depth + 1, block, colors => do
    let found ← module.blocks[block]?
    found.operations.foldlM
      (fun colors id => module.operationCalls depth (blockCalls depth) id colors) colors

/-- `ir_call_visit` from the top of the stack. -/
def callVisit (function : Nat) (colors : Colors) : Option Colors :=
  module.visitWith (module.blockCalls 65) function colors

def callsVerify : Bool :=
  ((List.range module.functions.length).foldlM
    (fun colors function => module.callVisit function colors) fun _ => Color.white).isSome

def parameterOf (id : Nat) (operation : Operation) : Option (Bytes × Bytes × Option Nat) := do
  let source ← (module.attributeGet id (ascii "source")).bind (·.text?)
  let symbol ← (module.attributeGet id (ascii "parameter")).bind (·.text?)
  return (source, symbol, module.coreResultType operation 0)

/-- `ir_parameter_compare`: the parameters are ordered by source and then by symbol. -/
def parameterLe (left right : Bytes × Bytes × Option Nat) : Bool :=
  if left.1 = right.1 then nameLe left.2.1 right.2.1 else nameLe left.1 right.1

def parameters : List (Bytes × Bytes × Option Nat) :=
  (module.operations.zipIdx.filter fun (operation, _) =>
    operation.definition.name == coreParameterName).filterMap fun (operation, id) =>
      module.parameterOf id operation

def parametersVerify : Except Rejection Unit :=
  let sorted := module.parameters.insertionSort fun left right => parameterLe left right
  require ((sorted.zip sorted.tail).all fun (left, right) =>
      left.1 != right.1 || left.2.1 != right.2.1 || left.2.2 == right.2.2)
    .format "one source parameter cannot declare incompatible logical types"

def bodyOwned (index : Nat) (function : Function) : Bool :=
  module.blocks[function.body]?.any fun body =>
    body.function == index && body.parentOperation.isNone

/-- The function loop of `yvex_ir_verify`. -/
def functionsVerify [Callbacks] : List (Function × Nat) → Marks → Except Rejection Marks
  | [], marks => .ok marks
  | (function, index) :: rest, marks => do
    require (module.bodyOwned index function) .format "function body ownership is invalid"
    let marks ← module.blockVerify 65 function.body marks
    functionsVerify rest marks

def verify [Callbacks] : Except Rejection Unit := do
  require (!module.functions.isEmpty && !module.operations.isEmpty)
    .format "module must contain computational entrypoints"
  require (module.types.all module.typeValid) .format "module contains invalid type geometry"
  let marks ← module.functionsVerify module.functions.zipIdx
    { visited := fun _ => false, consumed := fun _ => false }
  require ((List.range module.operations.length).all marks.visited) .format "orphan operation"
  module.parametersVerify
  require module.callsVerify .format "recursive calls require explicit bounded regions"

end Module

end Yvex.Ir
