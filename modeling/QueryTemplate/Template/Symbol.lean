import QueryTemplate.Template.Basic

set_option autoImplicit false

/- The tags and filters that a template names, in document order. -/

namespace QueryTemplate

inductive SymbolKind
  | tag
  | filter
deriving DecidableEq, Repr, Inhabited

namespace SymbolKind

def text : SymbolKind → String
  | tag => "tag"
  | filter => "filter"

end SymbolKind

structure Symbol where
  kind : SymbolKind
  name : String
  span : Span
deriving DecidableEq, Repr, Inhabited

mutual

def Expr.symbols : Expr → List Symbol
  | .literal _ _ => []
  | .var _ _ => []
  | .attr target _ _ => target.symbols
  | .filter _ target name nameSpan args _ =>
    target.symbols ++ ⟨.filter, name, nameSpan⟩ :: Expr.listSymbols args
  | .negate operand _ => operand.symbols
  | .binary _ left right _ => left.symbols ++ right.symbols

def Expr.listSymbols : List Expr → List Symbol
  | [] => []
  | expr :: rest => expr.symbols ++ Expr.listSymbols rest

end

mutual

def Node.symbols : Node → List Symbol
  | .text _ _ => []
  | .output expr _ => expr.symbols
  | .branch arms none _ => Node.armSymbols arms
  | .branch arms (some otherwise) _ => Node.armSymbols arms ++ Node.listSymbols otherwise
  | .loop _ _ iterable body _ => iterable.symbols ++ Node.listSymbols body
  | .assign _ _ value _ => value.symbols
  | .tag name nameSpan args none _ =>
    ⟨.tag, name, nameSpan⟩ :: args.flatMap (·.value.symbols)
  | .tag name nameSpan args (some body) _ =>
    ⟨.tag, name, nameSpan⟩ :: args.flatMap (·.value.symbols) ++ Node.listSymbols body

def Node.armSymbols : List (Expr × List Node) → List Symbol
  | [] => []
  | (condition, body) :: rest =>
    condition.symbols ++ Node.listSymbols body ++ Node.armSymbols rest

def Node.listSymbols : List Node → List Symbol
  | [] => []
  | node :: rest => node.symbols ++ Node.listSymbols rest

end

def Template.symbols (template : Template) : List Symbol := Node.listSymbols template

end QueryTemplate
