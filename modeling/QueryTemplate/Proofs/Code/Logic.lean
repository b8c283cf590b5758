import QueryTemplate.Program.Generate

set_option autoImplicit false

/- Two ways to compile the logical operators. Programs skip a right operand that the left one makes
superfluous; eager programs evaluate both operands and then combine them, as they do for any other
operator. The two kinds of code have different lengths and so different addresses. -/

namespace QueryTemplate

inductive Logic
  | shortCircuit
  | eager
deriving DecidableEq, Repr

/-- The jump by which an operator skips its right operand, if it may do so. -/
def Logic.skip? : Logic → BinaryOp → Option (Nat → Instr)
  | .shortCircuit, .and => some .jumpIfFalseOrPop
  | .shortCircuit, .or => some .jumpIfTrueOrPop
  | _, _ => none

mutual

/-- Code that pushes the value of an expression. -/
def Expr.codeBy (logic : Logic) (base : Nat) : Expr → List Instr
  | .literal value _ => [.const value.toJson]
  | .var name _ => [.load name]
  | .attr target name _ => target.codeBy logic base ++ [.attr name]
  | .filter awaited target name _ args _ =>
    let first := target.codeBy logic base
    first ++ Expr.listCodeBy logic (base + first.length) args ++ [.filter awaited name args.length]
  | .negate operand _ => operand.codeBy logic base ++ [.negate]
  | .binary op left right _ =>
    let first := left.codeBy logic base
    match logic.skip? op with
    | some skip =>
      let second := right.codeBy logic (base + first.length + 1)
      first ++ skip (base + first.length + 1 + second.length) :: second
    | none => first ++ right.codeBy logic (base + first.length) ++ [.binary op]

def Expr.listCodeBy (logic : Logic) (base : Nat) : List Expr → List Instr
  | [] => []
  | expr :: rest =>
    let first := expr.codeBy logic base
    first ++ Expr.listCodeBy logic (base + first.length) rest

end

mutual

/-- The number of instructions of a node. -/
def Node.sizeBy (logic : Logic) : Node → Nat
  | .text content _ => if content = "" then 0 else 1
  | .output expr _ => (expr.codeBy logic 0).length + 1
  | .branch arms none _ => Node.armsSizeBy logic arms
  | .branch arms (some otherwise) _ => Node.armsSizeBy logic arms + Node.listSizeBy logic otherwise
  | .loop _ _ iterable body _ => (iterable.codeBy logic 0).length + 3 + Node.listSizeBy logic body
  | .assign _ _ value _ => (value.codeBy logic 0).length + 1
  | .tag _ _ args none _ => (Expr.listCodeBy logic 0 (Arg.pushed args)).length + 1
  | .tag _ _ args (some body) _ =>
    1 + Node.listSizeBy logic body + (Expr.listCodeBy logic 0 (Arg.pushed args)).length + 1

def Node.armsSizeBy (logic : Logic) : List (Expr × List Node) → Nat
  | [] => 0
  | (condition, body) :: rest =>
    (condition.codeBy logic 0).length + 2 + Node.listSizeBy logic body + Node.armsSizeBy logic rest

def Node.listSizeBy (logic : Logic) : List Node → Nat
  | [] => 0
  | node :: rest => node.sizeBy logic + Node.listSizeBy logic rest

end

mutual

def Node.codeBy (logic : Logic) (base : Nat) : Node → List Instr
  | .text content _ => if content = "" then [] else [.text content]
  | .output expr _ => expr.codeBy logic base ++ [.emit]
  | .branch arms none _ => Node.armsCodeBy logic base (base + Node.armsSizeBy logic arms) arms
  | .branch arms (some otherwise) _ =>
    let last := base + Node.armsSizeBy logic arms
    Node.armsCodeBy logic base (last + Node.listSizeBy logic otherwise) arms ++
      Node.listCodeBy logic last otherwise
  | .loop var _ iterable body _ =>
    let first := iterable.codeBy logic base
    let head := base + first.length + 1
    let inner := Node.listCodeBy logic (head + 1) body
    first ++ .iterStart :: .iterNext var (head + 1 + inner.length + 1) :: inner ++ [.jump head]
  | .assign var _ value _ => value.codeBy logic base ++ [.assign var]
  | .tag name _ args none _ =>
    Expr.listCodeBy logic base (Arg.pushed args) ++ [Arg.call name args false]
  | .tag name _ args (some body) _ =>
    let inner := Node.listCodeBy logic (base + 1) body
    .capture :: inner ++ Expr.listCodeBy logic (base + 1 + inner.length) (Arg.pushed args) ++
      [Arg.call name args true]

def Node.armsCodeBy (logic : Logic) (base stop : Nat) : List (Expr × List Node) → List Instr
  | [] => []
  | (condition, body) :: rest =>
    let test := condition.codeBy logic base
    let inner := Node.listCodeBy logic (base + test.length + 1) body
    let next := base + test.length + 1 + inner.length + 1
    test ++ .jumpIfFalse next :: inner ++ .jump stop :: Node.armsCodeBy logic next stop rest

def Node.listCodeBy (logic : Logic) (base : Nat) : List Node → List Instr
  | [] => []
  | node :: rest =>
    let first := node.codeBy logic base
    first ++ Node.listCodeBy logic (base + first.length) rest

end

def Template.programBy (logic : Logic) (template : Template) : Program :=
  Node.listCodeBy logic 0 template ++ [.deliver]

mutual

theorem Expr.codeBy_shortCircuit (expr : Expr) (base : Nat) :
    expr.codeBy .shortCircuit base = expr.code base := by
  match expr with
  | .literal _ _ => rfl
  | .var _ _ => rfl
  | .attr target _ _ => simp only [Expr.codeBy, Expr.code, target.codeBy_shortCircuit]
  | .filter _ target _ _ args _ =>
      simp only [Expr.codeBy, Expr.code, target.codeBy_shortCircuit,
        Expr.listCodeBy_shortCircuit args]
  | .negate operand _ => simp only [Expr.codeBy, Expr.code, operand.codeBy_shortCircuit]
  | .binary op left right _ =>
      cases op <;>
        simp only [Expr.codeBy, Expr.code, Logic.skip?, left.codeBy_shortCircuit,
          right.codeBy_shortCircuit]

theorem Expr.listCodeBy_shortCircuit (exprs : List Expr) (base : Nat) :
    Expr.listCodeBy .shortCircuit base exprs = Expr.listCode base exprs := by
  match exprs with
  | [] => rfl
  | expr :: rest =>
      simp only [Expr.listCodeBy, Expr.listCode, expr.codeBy_shortCircuit,
        Expr.listCodeBy_shortCircuit rest]

end

mutual

theorem Node.sizeBy_shortCircuit (node : Node) : node.sizeBy .shortCircuit = node.size := by
  match node with
  | .text _ _ => rfl
  | .output expr _ => simp only [Node.sizeBy, Node.size, expr.codeBy_shortCircuit]
  | .branch arms none _ => simp only [Node.sizeBy, Node.size, Node.armsSizeBy_shortCircuit arms]
  | .branch arms (some otherwise) _ =>
      simp only [Node.sizeBy, Node.size, Node.armsSizeBy_shortCircuit arms,
        Node.listSizeBy_shortCircuit otherwise]
  | .loop _ _ iterable body _ =>
      simp only [Node.sizeBy, Node.size, iterable.codeBy_shortCircuit,
        Node.listSizeBy_shortCircuit body]
  | .assign _ _ value _ => simp only [Node.sizeBy, Node.size, value.codeBy_shortCircuit]
  | .tag _ _ args none _ => simp only [Node.sizeBy, Node.size, Expr.listCodeBy_shortCircuit]
  | .tag _ _ args (some body) _ =>
      simp only [Node.sizeBy, Node.size, Expr.listCodeBy_shortCircuit,
        Node.listSizeBy_shortCircuit body]

theorem Node.armsSizeBy_shortCircuit (arms : List (Expr × List Node)) :
    Node.armsSizeBy .shortCircuit arms = Node.armsSize arms := by
  match arms with
  | [] => rfl
  | (condition, body) :: rest =>
      simp only [Node.armsSizeBy, Node.armsSize, condition.codeBy_shortCircuit,
        Node.listSizeBy_shortCircuit body, Node.armsSizeBy_shortCircuit rest]

theorem Node.listSizeBy_shortCircuit (nodes : List Node) :
    Node.listSizeBy .shortCircuit nodes = Node.listSize nodes := by
  match nodes with
  | [] => rfl
  | node :: rest =>
      simp only [Node.listSizeBy, Node.listSize, node.sizeBy_shortCircuit,
        Node.listSizeBy_shortCircuit rest]

end

mutual

theorem Node.codeBy_shortCircuit (node : Node) (base : Nat) :
    node.codeBy .shortCircuit base = node.code base := by
  match node with
  | .text _ _ => rfl
  | .output expr _ => simp only [Node.codeBy, Node.code, expr.codeBy_shortCircuit]
  | .branch arms none _ =>
      simp only [Node.codeBy, Node.code, Node.armsSizeBy_shortCircuit,
        Node.armsCodeBy_shortCircuit arms]
  | .branch arms (some otherwise) _ =>
      simp only [Node.codeBy, Node.code, Node.armsSizeBy_shortCircuit,
        Node.listSizeBy_shortCircuit, Node.armsCodeBy_shortCircuit arms,
        Node.listCodeBy_shortCircuit otherwise]
  | .loop _ _ iterable body _ =>
      simp only [Node.codeBy, Node.code, iterable.codeBy_shortCircuit,
        Node.listCodeBy_shortCircuit body]
  | .assign _ _ value _ => simp only [Node.codeBy, Node.code, value.codeBy_shortCircuit]
  | .tag _ _ args none _ => simp only [Node.codeBy, Node.code, Expr.listCodeBy_shortCircuit]
  | .tag _ _ args (some body) _ =>
      simp only [Node.codeBy, Node.code, Expr.listCodeBy_shortCircuit,
        Node.listCodeBy_shortCircuit body]

theorem Node.armsCodeBy_shortCircuit (arms : List (Expr × List Node)) (base stop : Nat) :
    Node.armsCodeBy .shortCircuit base stop arms = Node.armsCode base stop arms := by
  match arms with
  | [] => rfl
  | (condition, body) :: rest =>
      simp only [Node.armsCodeBy, Node.armsCode, condition.codeBy_shortCircuit,
        Node.listCodeBy_shortCircuit body, Node.armsCodeBy_shortCircuit rest]

theorem Node.listCodeBy_shortCircuit (nodes : List Node) (base : Nat) :
    Node.listCodeBy .shortCircuit base nodes = Node.listCode base nodes := by
  match nodes with
  | [] => rfl
  | node :: rest =>
      simp only [Node.listCodeBy, Node.listCode, node.codeBy_shortCircuit,
        Node.listCodeBy_shortCircuit rest]

end

theorem Template.programBy_shortCircuit (template : Template) :
    programBy .shortCircuit template = program template := by
  rw [programBy, program, Node.listCodeBy_shortCircuit]

end QueryTemplate
