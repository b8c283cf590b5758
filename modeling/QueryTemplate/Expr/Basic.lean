import QueryTemplate.Expr.Operator
import QueryTemplate.Source

set_option autoImplicit false

/- Expressions of templates, each part with its place in the source. -/

namespace QueryTemplate

inductive Literal
  | null
  | bool (value : Bool)
  | int (value : Int)
  | float (value : Binary64)
  | string (value : String)
deriving DecidableEq, Repr, Inhabited

namespace Literal

/-- JSON has no infinite numbers, so a literal beyond the largest finite number is null. -/
def toJson : Literal → Json
  | null => .null
  | bool value => .bool value
  | int value => .number (.int value)
  | float value => if value.isFinite then .number (.float value) else .null
  | string value => .string value

end Literal

/-- The application of a filter is awaited when its result may come later. -/
inductive Expr
  | literal (value : Literal) (span : Span)
  | var (name : String) (span : Span)
  | attr (target : Expr) (name : String) (span : Span)
  | filter (awaited : Bool) (target : Expr) (name : String) (nameSpan : Span)
      (args : List Expr) (span : Span)
  | negate (operand : Expr) (span : Span)
  | binary (op : BinaryOp) (left right : Expr) (span : Span)
deriving Repr, Inhabited

namespace Expr

def span : Expr → Span
  | literal _ span => span
  | var _ span => span
  | attr _ _ span => span
  | filter _ _ _ _ _ span => span
  | negate _ span => span
  | binary _ _ _ span => span

/-- The names of a variable and the attributes taken from it, joined by dots. -/
def path? : Expr → Option String
  | var name _ => some name
  | attr target name _ => target.path?.map fun path => path ++ "." ++ name
  | _ => none

def join (op : BinaryOp) (left right : Expr) : Expr :=
  binary op left right (left.span.through right.span)

@[simp] theorem span_join (op : BinaryOp) (left right : Expr) :
    (join op left right).span = left.span.through right.span := rfl

end Expr

end QueryTemplate
