import Yvex.Foundation.Checked

namespace Yvex.Ir

/-! # Names and dialects

A dialect is a table of operation contracts. A module is opened over a list of dialects and
can hold only operations whose contract stands in one of them. -/

/-- The characters of a C string, without its final zero. -/
abbrev Bytes := List UInt8

def ascii (text : String) : Bytes := text.toList.map fun letter => letter.toNat.toUInt8

/-- `YVEX_IR_NAME_CAP`: the size of a name with its final zero. -/
def nameCap : Nat := 96

def dot : UInt8 := 46

def isLetter (letter : UInt8) : Bool :=
  (97 ≤ letter && letter ≤ 122) || (65 ≤ letter && letter ≤ 90)

def isDigit (letter : UInt8) : Bool := 48 ≤ letter && letter ≤ 57

def nameLetter (previous : Option UInt8) (letter : UInt8) : Bool :=
  if letter = dot then previous.isSome && previous != some dot
  else isLetter letter || letter == 95 || (previous.isSome && isDigit letter)

def nameLetters : Option UInt8 → Bytes → Bool
  | _, [] => true
  | previous, letter :: rest => nameLetter previous letter && nameLetters (some letter) rest

def nameValid (name : Bytes) (qualified : Bool) : Bool :=
  !name.isEmpty && nameLetters none name && decide (name.length < nameCap) &&
    name.getLast? != some dot && (!qualified || name.contains dot)

/-- The order of `strcmp`. -/
def nameLe : Bytes → Bytes → Bool
  | [], _ => true
  | _ :: _, [] => false
  | left :: lefts, right :: rights =>
    if left < right then true else if right < left then false else nameLe lefts rights

def sha256HexValid (text : Bytes) : Bool :=
  decide (text.length = 64) && text.all fun letter =>
    isDigit letter || (97 ≤ letter && letter ≤ 102) || (65 ≤ letter && letter ≤ 70)

def objectLimit : Nat := 1048576

/-- `IR_EFFECT_MASK`: every declared effect is one of its bits. -/
def effectMask : Nat := 31

def readState : Nat := 1

def writeState : Nat := 2

def publish : Nat := 8

def ordered : Nat := 16

inductive AttributeKind where
  | u64
  | f64
  | bool
  | text
  | type
  | symbol
deriving DecidableEq

structure AttributeRule where
  name : Bytes
  kind : AttributeKind
  required : Bool
deriving DecidableEq

/-- The `verify` callback of a contract: one of the functions of the core dialect, or one that
another dialect supplies. -/
inductive Callback where
  | observe
  | identity
  | parameter
  | index
  | call
  | return
  | yield
  | regions
  | stateRead
  | stateUpdate
  | extension (number : Nat)
deriving DecidableEq

structure OperationDefinition where
  name : Bytes
  version : Nat
  minimumOperands : Nat
  maximumOperands : Nat
  minimumResults : Nat
  maximumResults : Nat
  regions : Nat
  effects : Nat
  attributes : List AttributeRule
  terminator : Bool
  verify : Callback
deriving DecidableEq

abbrev Dialect := List OperationDefinition

def parameterRules : List AttributeRule :=
  [⟨ascii "parameter", .symbol, true⟩, ⟨ascii "source", .text, true⟩]

def coreDialect : Dialect := [⟨ascii "core.observe", 1, 1, 1, 0, 0, 0, publish ||| ordered,
      [⟨ascii "tag", .u64, true⟩], false, .observe⟩,
    ⟨ascii "core.identity", 1, 1, 1, 1, 1, 0, 0, [], false, .identity⟩,
    ⟨ascii "core.parameter", 1, 0, 0, 1, 1, 0, 0, parameterRules, false, .parameter⟩,
    ⟨ascii "core.parameter", 2, 0, 0, 1, 1, 0, 0,
      parameterRules ++ [⟨ascii "expert_count", .u64, true⟩], false, .parameter⟩,
    ⟨ascii "core.index", 1, 0, 0, 1, 1, 0, 0, [⟨ascii "value", .u64, true⟩], false, .index⟩,
    ⟨ascii "core.call", 1, 0, objectLimit, 0, objectLimit, 0, 0,
      [⟨ascii "callee", .symbol, true⟩], false, .call⟩,
    ⟨ascii "core.return", 1, 0, objectLimit, 0, 0, 0, 0, [], true, .return⟩,
    ⟨ascii "core.yield", 1, 0, objectLimit, 0, 0, 0, 0, [], true, .yield⟩,
    ⟨ascii "core.loop", 1, 1, objectLimit, 0, objectLimit, 1, ordered, [], false, .regions⟩,
    ⟨ascii "core.if", 1, 1, objectLimit, 0, objectLimit, 2, ordered, [], false, .regions⟩,
    ⟨ascii "state.read", 1, 1, 1, 1, 1, 0, readState, [], false, .stateRead⟩,
    ⟨ascii "state.update", 1, 2, 2, 1, 1, 0, readState ||| writeState, [], false, .stateUpdate⟩]

/-- The two other standard dialects, `yvex_ir_neural_dialect` and `yvex_ir_sequence_dialect`. -/
class StandardDialects where
  neural : Dialect
  sequence : Dialect

@[reducible] def coreOnly : StandardDialects := ⟨[], []⟩

section

variable [StandardDialects]

def builtins : Dialect := coreDialect ++ StandardDialects.neural ++ StandardDialects.sequence

def nameSpace (name : Bytes) : Bytes := name.takeWhile (· != dot) ++ [dot]

variable (operation : OperationDefinition)

/-- `ir_builtin_definition_valid`: a standard name keeps its standard contract, and no other
contract stands in a standard name space. -/
def builtinDefinitionValid : Bool :=
  match builtins.find? fun canonical =>
      operation.name == canonical.name && operation.version == canonical.version with
  | some canonical => operation == canonical
  | none => builtins.all fun canonical => !(nameSpace canonical.name).isPrefixOf operation.name

def attributeRulesValid (rules : List AttributeRule) : Bool :=
  decide (rules.length ≤ 256) && (rules.all fun rule => nameValid rule.name false) &&
    decide (rules.map (·.name)).Nodup

def definitionValid : Bool := nameValid operation.name true && operation.version != 0 &&
    decide (operation.minimumOperands ≤ operation.maximumOperands) &&
    decide (operation.minimumResults ≤ operation.maximumResults) &&
    decide (operation.maximumOperands ≤ objectLimit) &&
    decide (operation.maximumResults ≤ objectLimit) &&
    decide (operation.regions ≤ 2) && decide (operation.effects ≤ effectMask) &&
    builtinDefinitionValid operation && attributeRulesValid operation.attributes

def dialectsValid (dialects : List Dialect) : Bool :=
  !dialects.isEmpty && decide (dialects.length ≤ 256) &&
    (dialects.all fun dialect => !dialect.isEmpty && decide (dialect.length ≤ 4096) &&
      dialect.all definitionValid) &&
    decide (dialects.flatten.map fun operation => (operation.name, operation.version)).Nodup

end

end Yvex.Ir
