import QueryTemplate.Template.Basic

set_option autoImplicit false

/- The nodes and expressions of a template in document order, each before its parts. -/

namespace QueryTemplate

inductive Element
  | node (value : Node)
  | expr (value : Expr)
deriving Repr, Inhabited

inductive ElementKind
  | text
  | output
  | branch
  | loop
  | assign
  | tag
  | literal
  | var
  | attr
  | filter
  | awaitedFilter
  | negate
  | binary
deriving DecidableEq, Repr, Inhabited

namespace Element

def kind : Element → ElementKind
  | node (.text ..) => .text
  | node (.output ..) => .output
  | node (.branch ..) => .branch
  | node (.loop ..) => .loop
  | node (.assign ..) => .assign
  | node (.tag ..) => .tag
  | expr (.literal ..) => .literal
  | expr (.var ..) => .var
  | expr (.attr ..) => .attr
  | expr (.filter false ..) => .filter
  | expr (.filter true ..) => .awaitedFilter
  | expr (.negate ..) => .negate
  | expr (.binary ..) => .binary

def span : Element → Span
  | node value => value.span
  | expr value => value.span

end Element

mutual

def Expr.elements : Expr → List Element
  | .literal value span => [.expr (.literal value span)]
  | .var name span => [.expr (.var name span)]
  | .attr target name span => .expr (.attr target name span) :: target.elements
  | .filter awaited target name nameSpan args span =>
    .expr (.filter awaited target name nameSpan args span) ::
      target.elements ++ Expr.listElements args
  | .negate operand span => .expr (.negate operand span) :: operand.elements
  | .binary op left right span =>
    .expr (.binary op left right span) :: left.elements ++ right.elements

def Expr.listElements : List Expr → List Element
  | [] => []
  | expr :: rest => expr.elements ++ Expr.listElements rest

end

theorem Expr.mem_listElements {exprs : List Expr} {element : Element} :
    element ∈ Expr.listElements exprs ↔ ∃ expr ∈ exprs, element ∈ expr.elements := by
  induction exprs with
  | nil => simp [Expr.listElements]
  | cons expr rest ih =>
      rw [Expr.listElements, List.mem_append, ih]
      simp only [List.mem_cons, exists_eq_or_imp]

mutual

def Node.elements : Node → List Element
  | .text content span => [.node (.text content span)]
  | .output expr span => .node (.output expr span) :: expr.elements
  | .branch arms none span => .node (.branch arms none span) :: Node.armElements arms
  | .branch arms (some otherwise) span =>
    .node (.branch arms (some otherwise) span) ::
      Node.armElements arms ++ Node.listElements otherwise
  | .loop var varSpan iterable body span =>
    .node (.loop var varSpan iterable body span) :: iterable.elements ++ Node.listElements body
  | .assign var varSpan value span => .node (.assign var varSpan value span) :: value.elements
  | .tag name nameSpan args none span =>
    .node (.tag name nameSpan args none span) :: args.flatMap (·.value.elements)
  | .tag name nameSpan args (some body) span =>
    .node (.tag name nameSpan args (some body) span) ::
      args.flatMap (·.value.elements) ++ Node.listElements body

def Node.armElements : List (Expr × List Node) → List Element
  | [] => []
  | (condition, body) :: rest =>
    condition.elements ++ Node.listElements body ++ Node.armElements rest

def Node.listElements : List Node → List Element
  | [] => []
  | node :: rest => node.elements ++ Node.listElements rest

end

def Template.elements (template : Template) : List Element := Node.listElements template

end QueryTemplate
