import Yvex.Ir.Verify

namespace Yvex.Ir

/-! # Execution paths

A path executes the operations of a body in order. An operation with regions and a call wait
while blocks are executed for them: a conditional executes one of its regions, a loop its
region any number of times, and a call the body of its callee. Every execution of a block
binds its arguments and results anew, so each binding has a version number of its own. -/

inductive PathEvent where
  | bound (value version : Nat)
  | executed (operation : Nat) (operands : List (Nat × Option Nat))
deriving DecidableEq

structure Frame where
  block : Nat
  finished : List Nat
  waiting : Option (Nat × Nat)
  remaining : List Nat
  versions : Nat → Option Nat

structure Path where
  frames : List Frame
  next : Nat
  trace : List PathEvent

inductive Choice where
  | execute
  | enter (body : Nat)
  | finish

def bindVersions (values : List Nat) (first : Nat) (versions : Nat → Option Nat) :
    Nat → Option Nat :=
  fun value =>
    match values.findIdx? (· == value) with
    | some index => some (first + index)
    | none => versions value

def boundEvents (values : List Nat) (first : Nat) : List PathEvent :=
  values.zipIdx.map fun (value, index) => .bound value (first + index)

namespace Module

variable (module : Module)

def lookup : List Frame → Nat → Option Nat
  | [], _ => none
  | frame :: below, value =>
    match frame.versions value with
    | some version => some version
    | none =>
      if module.blocks[frame.block]?.any fun found => found.parentOperation.isSome then
        lookup below value
      else none

def bodies (id : Nat) (operation : Operation) : List Nat :=
  if isCall operation then
    (((module.callTarget id).bind fun target => module.functions[target]?).map (·.body)).toList
  else operation.regions

def hasBodies (operation : Operation) : Bool :=
  isCall operation || operation.definition.regions != 0

def once (operation : Operation) : Bool :=
  isCall operation || operation.definition.name == coreIfName

section

variable (path : Path)

def begin (frame : Frame) (below : List Frame) (id : Nat) (rest : List Nat)
    (operation : Operation) : Path :=
  { path with
    frames := { frame with waiting := some (id, 0), remaining := rest } :: below
    trace := path.trace ++ [.executed id (operation.operands.map fun value =>
      (value, module.lookup path.frames value))] }

def complete (frame : Frame) (below : List Frame) (id : Nat) (operation : Operation) : Path :=
  if operation.definition.terminator then { path with frames := below }
  else
    { frames :=
        { frame with
          finished := frame.finished ++ [id]
          waiting := none
          versions := bindVersions operation.results path.next frame.versions } :: below
      next := path.next + operation.results.length
      trace := path.trace ++ boundEvents operation.results path.next }

def openBlock (frames : List Frame) (block : Nat) (found : Block) : Path :=
  { frames :=
      { block, finished := [], waiting := none, remaining := found.operations,
        versions := bindVersions found.arguments path.next fun _ => none } :: frames
    next := path.next + found.arguments.length
    trace := path.trace ++ boundEvents found.arguments path.next }

def execute : Path :=
  match path.frames with
  | [] => path
  | frame :: below =>
    match frame.waiting, frame.remaining with
    | none, id :: rest =>
      match module.operations[id]? with
      | none => path
      | some operation =>
        let begun := module.begin path frame below id rest operation
        if hasBodies operation then begun
        else complete begun { frame with waiting := some (id, 0), remaining := rest } below id
          operation
    | _, _ => path

def enter (body : Nat) : Path :=
  match path.frames with
  | [] => path
  | frame :: below =>
    match frame.waiting with
    | none => path
    | some (id, entered) =>
      match module.operations[id]? with
      | none => path
      | some operation =>
        match module.blocks[body]? with
        | none => path
        | some found =>
          if body ∈ module.bodies id operation ∧ (once operation = true → entered = 0) then
            openBlock path ({ frame with waiting := some (id, entered + 1) } :: below) body found
          else path

def finish : Path :=
  match path.frames with
  | [] => path
  | frame :: below =>
    match frame.waiting with
    | none => path
    | some (id, entered) =>
      match module.operations[id]? with
      | none => path
      | some operation =>
        if once operation = true → entered = 1 then complete path frame below id operation
        else path

/-- One step of a path. A choice that is not open leaves it as it is. -/
def pathStep : Choice → Path
  | .execute => module.execute path
  | .enter body => module.enter path body
  | .finish => module.finish path

end

def pathStart (function : Function) : Path :=
  match module.blocks[function.body]? with
  | none => { frames := [], next := 0, trace := [] }
  | some found => openBlock { frames := [], next := 0, trace := [] } [] function.body found

def path (function : Function) (choices : List Choice) : Path :=
  choices.foldl module.pathStep (module.pathStart function)

def Consumed (trace : List PathEvent) (version : Nat) : Prop :=
  ∃ id operands value, .executed id operands ∈ trace ∧ (value, some version) ∈ operands ∧
    module.ConsumedBy id value

/-- An executed operation finds every operand bound before and no version consumed before, and
does not consume one version twice. -/
def Clean (earlier : List PathEvent) : PathEvent → Prop
  | .bound _ _ => True
  | .executed id operands =>
    (∀ operand ∈ operands, ∃ version, operand.2 = some version ∧
      .bound operand.1 version ∈ earlier) ∧
    (∀ value version, (value, some version) ∈ operands → ¬ module.Consumed earlier version) ∧
    operands.Pairwise fun left right => module.ConsumedBy id left.1 → left.2 ≠ right.2

end Module

end Yvex.Ir
