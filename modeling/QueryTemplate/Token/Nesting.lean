import QueryTemplate.Template.ParseError

set_option autoImplicit false

/- The limits on nesting, checked on the tokens before anything recurses on expressions: how deep
parentheses and runs of `not` nest, and how many operators are chained. Every region starts the
count anew. -/

namespace QueryTemplate

/-- How deep blocks and expressions may nest. -/
def maxNesting : Nat := 64

/-- How many operators may be chained, each of which adds a level to the tree. The limit is meant for
one expression, but the count goes on to the end of the region, so the arguments of a tag share it. -/
def maxOperators : Nat := maxNesting * 4

/-- What has been seen of a region. An open parenthesis counts together with the run of `not`
before it, and its closer takes both back. -/
structure Nesting where
  opened : List Nat
  depth : Nat
  nots : Nat
  operators : Nat
deriving DecidableEq, Repr

namespace Nesting

def start : Nesting := ⟨[], 0, 0, 0⟩

def after (n : Nesting) : Token → Nesting
  | .mark .outputClose | .mark .tagClose => start
  | .mark .notWord => { n with nots := n.nots + 1 }
  | .mark .parenOpen =>
    { n with opened := (n.nots + 1) :: n.opened, depth := n.depth + (n.nots + 1), nots := 0 }
  | .mark .parenClose =>
    { n with opened := n.opened.tail, depth := n.depth - n.opened.headD 0 }
  | .mark .dot | .mark .pipe | .mark .andWord | .mark .orWord | .mark .eq | .mark .notEq
  | .mark .less | .mark .lessEq | .mark .greater | .mark .greaterEq =>
    { n with operators := n.operators + 1 }
  | _ => { n with nots := 0 }

/-- The first token that goes beyond a limit is an error. -/
def check (n : Nesting) : List (Located Token) → Except ParseError Unit
  | [] => .ok ()
  | token :: rest =>
    let next := n.after token.value
    if maxNesting < next.depth + next.nots then .error (.tooDeep maxNesting token.span)
    else if maxOperators < next.operators then .error (.tooDeep maxOperators token.span)
    else check next rest

end Nesting

end QueryTemplate
