import QueryTemplate.Json.Basic

set_option autoImplicit false

/- The binary operators of expressions. -/

namespace QueryTemplate

inductive BinaryOp
  | eq
  | notEq
  | less
  | lessEq
  | greater
  | greaterEq
  | and
  | or
deriving DecidableEq, Repr, Inhabited

namespace BinaryOp

def all : List BinaryOp := [eq, notEq, less, lessEq, greater, greaterEq, and, or]

def symbol : BinaryOp → String
  | eq => "=="
  | notEq => "!="
  | less => "<"
  | lessEq => "<="
  | greater => ">"
  | greaterEq => ">="
  | and => "and"
  | or => "or"

def ofSymbol? (text : String) : Option BinaryOp := all.find? fun op => op.symbol == text

/-- What a comparison says of two values. The logical operators compare nothing. -/
def holds (op : BinaryOp) (left right : Json) : Bool :=
  match op with
  | eq => left.equal right
  | notEq => !left.equal right
  | less => (left.compare? right).any (·.isLT)
  | lessEq => (left.compare? right).any (·.isLE)
  | greater => (left.compare? right).any (·.isGT)
  | greaterEq => (left.compare? right).any (·.isGE)
  | and | or => false

theorem ofSymbol?_symbol (op : BinaryOp) : ofSymbol? op.symbol = some op := by
  cases op <;> decide

end BinaryOp

end QueryTemplate
