import QueryTemplate.Execution.Error
import QueryTemplate.Extension.Registry

set_option autoImplicit false

/- The stack machine that executes programs. Builders made by tags are kept apart from data:
emitting a builder splices its statement, while data of any shape is bound as a parameter. -/

namespace QueryTemplate

/-- What the stack and the variables hold. -/
inductive Slot
  | data (value : Json)
  | builder (value : Builder)
deriving Repr, Inhabited

namespace Slot

def toJson : Slot → Json
  | data value => value
  | builder value => value.toJson

def isTruthy : Slot → Bool
  | data value => value.isTruthy
  | builder _ => true

/-- The logical operators give one of their operands unchanged. -/
def binary (op : BinaryOp) (left right : Slot) : Slot :=
  match op with
  | .and => if left.isTruthy then right else left
  | .or => if left.isTruthy then left else right
  | _ => data (.bool (op.holds left.toJson right.toJson))

end Slot

/-- The items of an open loop and how many of them have been bound. -/
structure Loop where
  items : List Json
  position : Nat
deriving Repr, Inhabited

namespace Loop

/-- The value of the variable `loop` for the item at an index. -/
def status (index length : Nat) : Json :=
  .ofMembers [("index", .nat (index + 1)), ("index0", .nat index),
    ("first", .bool (index == 0)), ("last", .bool (index + 1 == length)),
    ("length", .nat length)]

end Loop

namespace Json

/-- What a loop over a value runs through: the items of an array, the keys of an object, nothing for
null. -/
def loopItems? : Json → Option (List Json)
  | array items => some items
  | object members => some (members.map fun member => string member.1)
  | null => some []
  | _ => none

end Json

/-- The variables bound in one scope. -/
abbrev Frame := Table Slot

/-- What an execution runs and what it may see, none of which changes. -/
structure Setting where
  program : Program
  runtime : RuntimeEnvironment
  strict : Bool
  data : Table Json

/-- The state of an execution. Stacks have their innermost element first; below the frames of the
open loops lies the frame of the template. -/
structure Machine where
  pc : Nat := 0
  stack : List Slot := []
  loops : List Loop := []
  frames : List Frame := [[]]
  main : Builder := .empty
  captures : List Builder := []
  exported : Option Builder := none
deriving Repr, Inhabited

namespace Machine

def start : Machine := {}

def lookupFrames (name : String) : List Frame → Option Slot
  | [] => none
  | frame :: frames =>
    match Table.get? frame name with
    | some slot => some slot
    | none => lookupFrames name frames

/-- The innermost variable of a name, or else the member of the data. -/
def lookup (data : Table Json) (machine : Machine) (name : String) : Option Slot :=
  match lookupFrames name machine.frames with
  | some slot => some slot
  | none => (Table.get? data name).map .data

/-- Binds a variable in the innermost frame. -/
def assign (machine : Machine) (name : String) (slot : Slot) : Machine :=
  match machine.frames with
  | [] => machine
  | frame :: frames => { machine with frames := Table.insert frame name slot :: frames }

/-- The builder that receives output: the innermost capture, or else the main builder. -/
def output (machine : Machine) : Builder :=
  match machine.captures with
  | [] => machine.main
  | capture :: _ => capture

def setOutput (machine : Machine) (builder : Builder) : Machine :=
  match machine.captures with
  | [] => { machine with main := builder }
  | _ :: captures => { machine with captures := builder :: captures }

def push (machine : Machine) (slot : Slot) : Machine :=
  { machine with stack := slot :: machine.stack }

def pushData (machine : Machine) (value : Json) : Machine := machine.push (.data value)

def jumpTo (machine : Machine) (target : Nat) : Machine := { machine with pc := target }

def pop (machine : Machine) (mnemonic : String) : Except RuntimeError (Slot × Machine) :=
  match machine.stack with
  | [] => .error (.stackUnderflow mnemonic)
  | slot :: stack => .ok (slot, { machine with stack })

/-- Pops values as data, in the order in which they were pushed. -/
def popValues (machine : Machine) (count : Nat) (mnemonic : String) :
    Except RuntimeError (List Json × Machine) :=
  if machine.stack.length < count then .error (.stackUnderflow mnemonic)
  else
    .ok ((machine.stack.take count).reverse.map Slot.toJson,
      { machine with stack := machine.stack.drop count })

/-- Jumps and keeps the top when its truth is as given, or else drops it. -/
def shortCircuit (machine : Machine) (truth : Bool) (target : Nat) (mnemonic : String) :
    Except RuntimeError Machine :=
  match machine.stack with
  | [] => .error (.stackUnderflow mnemonic)
  | top :: stack =>
    if top.isTruthy = truth then .ok (machine.jumpTo target) else .ok { machine with stack }

def load (setting : Setting) (machine : Machine) (name : String) : Except RuntimeError Machine :=
  match machine.lookup setting.data name with
  | some slot => .ok (machine.push slot)
  | none =>
    if setting.strict then .error (.undefinedVariable name) else .ok (machine.pushData .null)

def applyFilter (runtime : RuntimeEnvironment) (machine : Machine) (awaited : Bool)
    (name : String) (argc : Nat) : Except RuntimeError Machine := do
  let (args, machine) ← machine.popValues argc "filter"
  let (target, machine) ← machine.pop "filter"
  match Table.get? runtime.filters name with
  | none => .error (.unknownFilter name)
  | some filter =>
    if filter.isAsync && !awaited then .error (.unawaitedFilter name)
    else
      match filter.transform target.toJson args with
      | .error error => .error (.extension error)
      | .ok value => .ok (machine.pushData value)

def emit (machine : Machine) : Except RuntimeError Machine := do
  let (slot, machine) ← machine.pop "emit"
  match slot with
  | .builder builder => .ok (machine.setOutput (machine.output.append builder))
  | .data value => .ok (machine.setOutput (machine.output.bind value))

def iterStart (machine : Machine) : Except RuntimeError Machine := do
  let (slot, machine) ← machine.pop "iter_start"
  let value := slot.toJson
  match value.loopItems? with
  | none => .error (.notIterable value.typeName)
  | some items =>
    .ok { machine with loops := ⟨items, 0⟩ :: machine.loops, frames := [] :: machine.frames }

/-- Binds the next item of the innermost loop, or closes the loop. -/
def iterNext (machine : Machine) (var : String) (exit : Nat) : Except RuntimeError Machine :=
  match machine.loops with
  | [] => .error (.stackUnderflow "iter_next")
  | loop :: loops =>
    match loop.items[loop.position]? with
    | none =>
      .ok { machine with pc := exit, loops, frames := machine.frames.tail }
    | some item =>
      let opened := { machine with loops := { loop with position := loop.position + 1 } :: loops }
      .ok ((opened.assign var (.data item)).assign "loop"
        (.data (Loop.status loop.position loop.items.length)))

def perform (machine : Machine) : TagEffect → Machine
  | .setVariable name value => machine.assign name (.data value)
  | .setBuilder name builder => machine.assign name (.builder builder)
  | .write output => machine.setOutput output
  | .deliver builder => { machine with exported := some builder }

def popBody (machine : Machine) (hasBody : Bool) :
    Except RuntimeError (Option Builder × Machine) :=
  if hasBody then
    match machine.captures with
    | [] => .error (.missingCapture "call_tag")
    | body :: captures => .ok (some body, { machine with captures })
  else .ok (none, machine)

def context (data : Table Json) (machine : Machine) (args : List Json) (kwargs : Table Json)
    (body : Option Builder) : TagContext where
  args := args
  kwargs := kwargs
  body := body
  lookup := fun name => (machine.lookup data name).map Slot.toJson
  output := machine.output
  hasExported := machine.exported.isSome

/-- Calls a tag; of several keyword arguments of one name the last counts. -/
def callTag (setting : Setting) (machine : Machine) (name : String) (argc : Nat)
    (kwargs : List String) (hasBody : Bool) : Except RuntimeError Machine := do
  let (values, machine) ← machine.popValues kwargs.length "call_tag"
  let (args, machine) ← machine.popValues argc "call_tag"
  let (body, machine) ← machine.popBody hasBody
  match Table.get? setting.runtime.tags name with
  | none => .error (.unknownTag name)
  | some run =>
    match run (machine.context setting.data args (Table.ofList (kwargs.zip values)) body) with
    | .error error => .error (.extension error)
    | .ok effects => .ok (effects.foldl perform machine)

def deliver (machine : Machine) : Machine :=
  match machine.exported with
  | some _ => machine
  | none => { machine with exported := some machine.main, main := .empty }

/-- Executes one instruction; the program counter already points to the next one. -/
def execute (setting : Setting) (machine : Machine) : Instr → Except RuntimeError Machine
  | .text content => .ok (machine.setOutput (machine.output.push content.toList))
  | .const value => .ok (machine.pushData value)
  | .load name => machine.load setting name
  | .attr name => do
    let (target, machine) ← machine.pop "attr"
    return machine.pushData (target.toJson.member name)
  | .negate => do
    let (operand, machine) ← machine.pop "not"
    return machine.pushData (.bool !operand.isTruthy)
  | .binary op => do
    let (right, machine) ← machine.pop "binop"
    let (left, machine) ← machine.pop "binop"
    return machine.push (.binary op left right)
  | .filter awaited name argc => machine.applyFilter setting.runtime awaited name argc
  | .emit => machine.emit
  | .assign name => do
    let (value, machine) ← machine.pop "set"
    return machine.assign name value
  | .jump target => .ok (machine.jumpTo target)
  | .jumpIfFalse target => do
    let (condition, machine) ← machine.pop "jump_if_false"
    return if condition.isTruthy then machine else machine.jumpTo target
  | .jumpIfFalseOrPop target => machine.shortCircuit false target "jump_if_false_or_pop"
  | .jumpIfTrueOrPop target => machine.shortCircuit true target "jump_if_true_or_pop"
  | .iterStart => machine.iterStart
  | .iterNext var exit => machine.iterNext var exit
  | .capture => .ok { machine with captures := .empty :: machine.captures }
  | .callTag name argc kwargs hasBody => machine.callTag setting name argc kwargs hasBody
  | .deliver => .ok machine.deliver

/-- One step, unless the program is at its end. -/
def step? (setting : Setting) (machine : Machine) : Option (Except RuntimeError Machine) :=
  match setting.program[machine.pc]? with
  | none => none
  | some instr => some ((machine.jumpTo (machine.pc + 1)).execute setting instr)

end Machine

/-- How a run of limited length ends. -/
inductive RunResult
  | finished (exported : Option Builder)
  | failed (error : RuntimeError)
  | outOfFuel
deriving Repr, Inhabited

namespace Machine

/-- Runs to the end of the program in at most `fuel` steps. -/
def run (setting : Setting) : (fuel : Nat) → Machine → RunResult
  | 0, machine =>
    match machine.step? setting with
    | none => .finished machine.exported
    | some _ => .outOfFuel
  | fuel + 1, machine =>
    match machine.step? setting with
    | none => .finished machine.exported
    | some (.error error) => .failed error
    | some (.ok next) => run setting fuel next

/-- Runs a program on a data object. -/
def runProgram (runtime : RuntimeEnvironment) (strict : Bool) (fuel : Nat) (program : Program)
    (data : Json) : RunResult :=
  match data with
  | .object members => run ⟨program, runtime, strict, members⟩ fuel start
  | other => .failed (.invalidData other.typeName)

end Machine

end QueryTemplate
