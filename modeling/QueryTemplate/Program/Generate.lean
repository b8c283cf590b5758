import QueryTemplate.Program.Instr
import QueryTemplate.Template.Basic

set_option autoImplicit false

/- From trees to programs. The code of a part depends on the address at which it begins only through
its jump targets, so its size is known before its address. -/

namespace QueryTemplate

mutual

/-- Code that pushes the value of an expression. The right operand of a logical operator runs only
when the left one does not decide. -/
def Expr.code (base : Nat) : Expr → List Instr
  | .literal value _ => [.const value.toJson]
  | .var name _ => [.load name]
  | .attr target name _ => target.code base ++ [.attr name]
  | .filter awaited target name _ args _ =>
    let first := target.code base
    first ++ Expr.listCode (base + first.length) args ++ [.filter awaited name args.length]
  | .negate operand _ => operand.code base ++ [.negate]
  | .binary .and left right _ =>
    let first := left.code base
    let second := right.code (base + first.length + 1)
    first ++ .jumpIfFalseOrPop (base + first.length + 1 + second.length) :: second
  | .binary .or left right _ =>
    let first := left.code base
    let second := right.code (base + first.length + 1)
    first ++ .jumpIfTrueOrPop (base + first.length + 1 + second.length) :: second
  | .binary op left right _ =>
    let first := left.code base
    first ++ right.code (base + first.length) ++ [.binary op]

def Expr.listCode (base : Nat) : List Expr → List Instr
  | [] => []
  | expr :: rest =>
    let first := expr.code base
    first ++ Expr.listCode (base + first.length) rest

end

namespace Arg

def positionals (args : List Arg) : List Expr := args.filterMap positional?

def keywords (args : List Arg) : List (String × Expr) :=
  args.filterMap fun
    | keyword key _ value => some (key, value)
    | positional _ => none

/-- The values of a tag in the order in which they are pushed: positional ones first. -/
def pushed (args : List Arg) : List Expr :=
  positionals args ++ (keywords args).map (·.2)

def call (name : String) (args : List Arg) (hasBody : Bool) : Instr :=
  .callTag name (positionals args).length ((keywords args).map (·.1)) hasBody

end Arg

mutual

/-- The number of instructions of a node. -/
def Node.size : Node → Nat
  | .text content _ => if content = "" then 0 else 1
  | .output expr _ => (expr.code 0).length + 1
  | .branch arms none _ => Node.armsSize arms
  | .branch arms (some otherwise) _ => Node.armsSize arms + Node.listSize otherwise
  | .loop _ _ iterable body _ => (iterable.code 0).length + 3 + Node.listSize body
  | .assign _ _ value _ => (value.code 0).length + 1
  | .tag _ _ args none _ => (Expr.listCode 0 (Arg.pushed args)).length + 1
  | .tag _ _ args (some body) _ =>
    1 + Node.listSize body + (Expr.listCode 0 (Arg.pushed args)).length + 1

def Node.armsSize : List (Expr × List Node) → Nat
  | [] => 0
  | (condition, body) :: rest =>
    (condition.code 0).length + 2 + Node.listSize body + Node.armsSize rest

def Node.listSize : List Node → Nat
  | [] => 0
  | node :: rest => node.size + Node.listSize rest

end

mutual

def Node.code (base : Nat) : Node → List Instr
  | .text content _ => if content = "" then [] else [.text content]
  | .output expr _ => expr.code base ++ [.emit]
  | .branch arms none _ => Node.armsCode base (base + Node.armsSize arms) arms
  | .branch arms (some otherwise) _ =>
    let last := base + Node.armsSize arms
    Node.armsCode base (last + Node.listSize otherwise) arms ++ Node.listCode last otherwise
  | .loop var _ iterable body _ =>
    let first := iterable.code base
    let head := base + first.length + 1
    let inner := Node.listCode (head + 1) body
    first ++ .iterStart :: .iterNext var (head + 1 + inner.length + 1) :: inner ++ [.jump head]
  | .assign var _ value _ => value.code base ++ [.assign var]
  | .tag name _ args none _ =>
    Expr.listCode base (Arg.pushed args) ++ [Arg.call name args false]
  | .tag name _ args (some body) _ =>
    let inner := Node.listCode (base + 1) body
    .capture :: inner ++ Expr.listCode (base + 1 + inner.length) (Arg.pushed args) ++
      [Arg.call name args true]

/-- Each arm tests its condition and, after its body, jumps to the end of the block. -/
def Node.armsCode (base stop : Nat) : List (Expr × List Node) → List Instr
  | [] => []
  | (condition, body) :: rest =>
    let test := condition.code base
    let inner := Node.listCode (base + test.length + 1) body
    let next := base + test.length + 1 + inner.length + 1
    test ++ .jumpIfFalse next :: inner ++ .jump stop :: Node.armsCode next stop rest

def Node.listCode (base : Nat) : List Node → List Instr
  | [] => []
  | node :: rest =>
    let first := node.code base
    first ++ Node.listCode (base + first.length) rest

end

/-- The program of a template ends by exporting its main builder. -/
def Template.program (template : Template) : Program := Node.listCode 0 template ++ [.deliver]

end QueryTemplate
