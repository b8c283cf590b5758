import QueryTemplate.Execution.Machine
import QueryTemplate.Program.Generate

set_option autoImplicit false

/- The meaning of templates, by recursion on their trees and with no program in between. Variables
live in frames, one for each open loop above the frame of the template, and text and parameters go
into the builder at hand. -/

namespace QueryTemplate

/-- What a template is evaluated against. -/
structure Surroundings where
  runtime : RuntimeEnvironment
  strict : Bool
  data : Table Json

/-- What evaluation changes. The innermost frame comes first; `output` is the builder that is being
written, that of a tag's body or else that of the template. -/
structure Scene where
  frames : List Frame
  output : Builder
  exported : Option Builder

namespace Surroundings

def lookup (around : Surroundings) (frames : List Frame) (name : String) : Option Slot :=
  match frames.findSome? fun frame => Table.get? frame name with
  | some slot => some slot
  | none => (Table.get? around.data name).map .data

/-- The value of a variable; one that is defined nowhere is null, or an error if that is asked
for. -/
def load (around : Surroundings) (frames : List Frame) (name : String) :
    Except RuntimeError Slot :=
  match around.lookup frames name with
  | some slot => .ok slot
  | none => if around.strict then .error (.undefinedVariable name) else .ok (.data .null)

def applyFilter (around : Surroundings) (awaited : Bool) (name : String) (target : Json)
    (args : List Json) : Except RuntimeError Slot :=
  match Table.get? around.runtime.filters name with
  | none => .error (.unknownFilter name)
  | some filter =>
    if filter.isAsync && !awaited then .error (.unawaitedFilter name)
    else
      match filter.transform target args with
      | .error error => .error (.extension error)
      | .ok value => .ok (.data value)

end Surroundings

namespace Scene

def start : Scene := ⟨[[]], .empty, none⟩

def write (scene : Scene) (text : String) : Scene :=
  { scene with output := scene.output.push text.toList }

/-- A builder is spliced, data of any shape is bound as a parameter. -/
def emit (scene : Scene) : Slot → Scene
  | .builder builder => { scene with output := scene.output.append builder }
  | .data value => { scene with output := scene.output.bind value }

/-- Binds a variable in the innermost frame. -/
def assign (scene : Scene) (name : String) (slot : Slot) : Scene :=
  match scene.frames with
  | [] => scene
  | frame :: frames => { scene with frames := Table.insert frame name slot :: frames }

def perform (scene : Scene) : TagEffect → Scene
  | .setVariable name value => scene.assign name (.data value)
  | .setBuilder name builder => scene.assign name (.builder builder)
  | .write output => { scene with output }
  | .deliver builder => { scene with exported := some builder }

def context (around : Surroundings) (scene : Scene) (args : List Json) (kwargs : Table Json)
    (body : Option Builder) : TagContext where
  args := args
  kwargs := kwargs
  body := body
  lookup := fun name => (around.lookup scene.frames name).map Slot.toJson
  output := scene.output
  hasExported := scene.exported.isSome

def callTag (around : Surroundings) (scene : Scene) (name : String) (args : List Slot)
    (keys : List String) (values : List Slot) (body : Option Builder) :
    Except RuntimeError Scene :=
  match Table.get? around.runtime.tags name with
  | none => .error (.unknownTag name)
  | some run =>
    let kwargs := Table.ofList (keys.zip (values.map Slot.toJson))
    match run (scene.context around (args.map Slot.toJson) kwargs body) with
    | .error error => .error (.extension error)
    | .ok effects => .ok (effects.foldl perform scene)

/-- Binds the loop variable, and after it the variable `loop`, for the item at an index. -/
def bindItem (scene : Scene) (var : String) (item : Json) (index length : Nat) : Scene :=
  (scene.assign var (.data item)).assign "loop" (.data (Loop.status index length))

/-- Runs a body for each of the items from an index on, in order. -/
def iterate (var : String) (length : Nat) (body : Scene → Except RuntimeError Scene) :
    (index : Nat) → List Json → Scene → Except RuntimeError Scene
  | _, [], scene => .ok scene
  | index, item :: items, scene => do
    let scene ← body (scene.bindItem var item index length)
    iterate var length body (index + 1) items scene

def openLoop (scene : Scene) : Scene := { scene with frames := [] :: scene.frames }

def closeLoop (scene : Scene) : Scene := { scene with frames := scene.frames.tail }

end Scene

namespace Expr

mutual

/-- The value of an expression. The right operand of a logical operator is evaluated only when the
left one does not decide. -/
def eval (around : Surroundings) (frames : List Frame) : Expr → Except RuntimeError Slot
  | .literal value _ => .ok (.data value.toJson)
  | .var name _ => around.load frames name
  | .attr target name _ => do
    let value ← target.eval around frames
    return .data (value.toJson.member name)
  | .filter awaited target name _ args _ => do
    let value ← target.eval around frames
    let values ← listEval around frames args
    around.applyFilter awaited name value.toJson (values.map Slot.toJson)
  | .negate operand _ => do
    let value ← operand.eval around frames
    return .data (.bool !value.isTruthy)
  | .binary .and left right _ => do
    let value ← left.eval around frames
    if value.isTruthy then right.eval around frames else return value
  | .binary .or left right _ => do
    let value ← left.eval around frames
    if value.isTruthy then return value else right.eval around frames
  | .binary op left right _ => do
    let first ← left.eval around frames
    let second ← right.eval around frames
    return .data (.bool (op.holds first.toJson second.toJson))

/-- The values of expressions from left to right. -/
def listEval (around : Surroundings) (frames : List Frame) :
    List Expr → Except RuntimeError (List Slot)
  | [] => .ok []
  | expr :: rest => do
    let value ← expr.eval around frames
    let values ← listEval around frames rest
    return value :: values

end

end Expr

namespace Node

mutual

/-- What a node does. A tag renders its body into a builder of its own before its positional
arguments and then its keyword arguments are evaluated. -/
def exec (around : Surroundings) (scene : Scene) : Node → Except RuntimeError Scene
  | .text content _ => .ok (scene.write content)
  | .output expr _ => do
    let value ← expr.eval around scene.frames
    return scene.emit value
  | .branch arms none _ => do
    let taken ← armsExec around scene arms
    return taken.getD scene
  | .branch arms (some otherwise) _ => do
    match ← armsExec around scene arms with
    | some taken => return taken
    | none => listExec around scene otherwise
  | .loop var _ iterable body _ => do
    let value ← iterable.eval around scene.frames
    match value.toJson.loopItems? with
    | none => .error (.notIterable value.toJson.typeName)
    | some items => do
      let scene ← Scene.iterate var items.length (fun scene => listExec around scene body) 0 items
        scene.openLoop
      return scene.closeLoop
  | .assign var _ value _ => do
    let slot ← value.eval around scene.frames
    return scene.assign var slot
  | .tag name _ args none _ => do
    let positional ← Expr.listEval around scene.frames (Arg.positionals args)
    let values ← Expr.listEval around scene.frames ((Arg.keywords args).map (·.2))
    scene.callTag around name positional ((Arg.keywords args).map (·.1)) values none
  | .tag name _ args (some body) _ => do
    let inner ← listExec around { scene with output := .empty } body
    let positional ← Expr.listEval around inner.frames (Arg.positionals args)
    let values ← Expr.listEval around inner.frames ((Arg.keywords args).map (·.2))
    let after := { inner with output := scene.output }
    after.callTag around name positional ((Arg.keywords args).map (·.1)) values
      (some inner.output)

/-- The first arm whose condition is true, unless none is. -/
def armsExec (around : Surroundings) (scene : Scene) :
    List (Expr × List Node) → Except RuntimeError (Option Scene)
  | [] => .ok none
  | (condition, body) :: rest => do
    let value ← condition.eval around scene.frames
    if value.isTruthy then
      let taken ← listExec around scene body
      return some taken
    else armsExec around scene rest

def listExec (around : Surroundings) (scene : Scene) : List Node → Except RuntimeError Scene
  | [] => .ok scene
  | node :: rest => do
    let scene ← node.exec around scene
    listExec around scene rest

end

end Node

namespace Template

/-- The builder that a template exports: the one that a tag chose, or else all that it wrote. -/
def interpret (around : Surroundings) (template : Template) : Except RuntimeError Builder := do
  let scene ← Node.listExec around Scene.start template
  return scene.exported.getD scene.output

end Template

end QueryTemplate
