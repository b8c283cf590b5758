import QueryTemplate.Expr.Basic
import QueryTemplate.Token.Reader

set_option autoImplicit false

/- The grammar of expressions. From loosest to tightest: `or`, `and`, one comparison, `not`,
filters, attributes, atoms. `or`, `and`, filters and attributes associate to the left. Every level
takes the reader of the expressions that stand in parentheses. -/

namespace QueryTemplate.Expr

open Reader

def literalOf? : Token → Option Literal
  | .int value => some (.int value)
  | .float value => some (.float value)
  | .string value => some (.string value)
  | .mark .trueWord => some (.bool true)
  | .mark .falseWord => some (.bool false)
  | .mark .nullWord => some .null
  | _ => none

def literalReader : Reader Expr := do
  let token ← accept literalOf?
  return .literal token.value token.span

def varReader : Reader Expr := do
  let name ← ident
  return .var name.value name.span

/-- The span of an expression in parentheses is that of the expression. -/
def parens (inner : Reader Expr) : Reader Expr := do
  let _ ← mark .parenOpen
  let expr ← inner
  let _ ← mark .parenClose
  return expr

def atom (inner : Reader Expr) : Reader Expr := choice [literalReader, varReader, parens inner]

def access : Reader (Located String) := do
  let _ ← mark .dot
  ident

def accessed (inner : Reader Expr) : Reader Expr := do
  let head ← atom inner
  let names ← many access
  return names.foldl (fun target name => .attr target name.value (target.span.through name.span)) head

/-- Expressions separated by commas; a comma may also follow the last one. -/
def commaList (inner : Reader Expr) : Reader (List Expr) := do
  match ← optional inner with
  | none => return []
  | some first =>
    let rest ← many do
      let _ ← mark .comma
      inner
    let _ ← optional (mark .comma)
    return first :: rest

/-- Arguments and the span of the closing parenthesis. -/
def filterArgs (inner : Reader Expr) : Reader (List Expr × Span) := do
  let _ ← mark .parenOpen
  let args ← commaList inner
  let close ← mark .parenClose
  return (args, close)

structure FilterSuffix where
  name : Located String
  args : List Expr
  last : Span

def filterSuffix (inner : Reader Expr) : Reader FilterSuffix := do
  let _ ← mark .pipe
  let name ← ident
  match ← optional (filterArgs inner) with
  | some (args, close) => return ⟨name, args, close⟩
  | none => return ⟨name, [], name.span⟩

def applyFilter (target : Expr) (suffix : FilterSuffix) : Expr :=
  .filter false target suffix.name.value suffix.name.span suffix.args
    (target.span.through suffix.last)

def filtered (inner : Reader Expr) : Reader Expr := do
  let head ← accessed inner
  let suffixes ← many (filterSuffix inner)
  return suffixes.foldl applyFilter head

def negated (inner : Reader Expr) : Reader Expr := do
  let nots ← many (mark .notWord)
  let operand ← filtered inner
  return nots.foldr (fun span expr => .negate expr (span.through expr.span)) operand

def marked (wanted : Mark) (op : BinaryOp) : Reader BinaryOp := do
  let _ ← mark wanted
  return op

def comparisonOp : Reader BinaryOp := choice [
  marked .eq .eq, marked .notEq .notEq, marked .lessEq .lessEq, marked .greaterEq .greaterEq,
  marked .less .less, marked .greater .greater]

def comparison (inner : Reader Expr) : Reader Expr := do
  let left ← negated inner
  let right ← optional do
    let op ← comparisonOp
    let right ← negated inner
    return (op, right)
  match right with
  | some (op, right) => return join op left right
  | none => return left

/-- Operands joined by one logical operator. -/
def chain (word : Mark) (op : BinaryOp) (operand : Reader Expr) : Reader Expr := do
  let first ← operand
  let rest ← many do
    let _ ← mark word
    operand
  return rest.foldl (join op) first

def disjunction (inner : Reader Expr) : Reader Expr :=
  chain .orWord .or (chain .andWord .and (comparison inner))

/-- Expressions with fewer than `depth` parentheses inside one another. -/
def readerWithin : Nat → Reader Expr
  | 0 => fail
  | depth + 1 => disjunction (readerWithin depth)

/-- No expression opens more parentheses than there are tokens. -/
def reader : Reader Expr := fun tokens => readerWithin (tokens.length + 1) tokens

end QueryTemplate.Expr
