import QueryTemplate.Template.Basic

set_option autoImplicit false

/- Marks the applications of given filters as awaited and leaves all else as it is. -/

namespace QueryTemplate

mutual

def Expr.awaiting (names : List String) : Expr → Expr
  | .literal value span => .literal value span
  | .var name span => .var name span
  | .attr target name span => .attr (target.awaiting names) name span
  | .filter awaited target name nameSpan args span =>
    .filter (awaited || names.contains name) (target.awaiting names) name nameSpan
      (Expr.listAwaiting names args) span
  | .negate operand span => .negate (operand.awaiting names) span
  | .binary op left right span => .binary op (left.awaiting names) (right.awaiting names) span

def Expr.listAwaiting (names : List String) : List Expr → List Expr
  | [] => []
  | expr :: rest => expr.awaiting names :: Expr.listAwaiting names rest

end

def Arg.awaiting (names : List String) : Arg → Arg
  | .positional value => .positional (value.awaiting names)
  | .keyword key keySpan value => .keyword key keySpan (value.awaiting names)

mutual

def Node.awaiting (names : List String) : Node → Node
  | .text content span => .text content span
  | .output expr span => .output (expr.awaiting names) span
  | .branch arms none span => .branch (Node.armsAwaiting names arms) none span
  | .branch arms (some otherwise) span =>
    .branch (Node.armsAwaiting names arms) (some (Node.listAwaiting names otherwise)) span
  | .loop var varSpan iterable body span =>
    .loop var varSpan (iterable.awaiting names) (Node.listAwaiting names body) span
  | .assign var varSpan value span => .assign var varSpan (value.awaiting names) span
  | .tag name nameSpan args none span =>
    .tag name nameSpan (args.map (·.awaiting names)) none span
  | .tag name nameSpan args (some body) span =>
    .tag name nameSpan (args.map (·.awaiting names)) (some (Node.listAwaiting names body)) span

def Node.armsAwaiting (names : List String) : List (Expr × List Node) → List (Expr × List Node)
  | [] => []
  | (condition, body) :: rest =>
    (condition.awaiting names, Node.listAwaiting names body) :: Node.armsAwaiting names rest

def Node.listAwaiting (names : List String) : List Node → List Node
  | [] => []
  | node :: rest => node.awaiting names :: Node.listAwaiting names rest

end

def Template.awaiting (names : List String) (template : Template) : Template :=
  Node.listAwaiting names template

end QueryTemplate
