set_option autoImplicit false

/- Places in a template's source: bytes of its UTF-8 encoding, and lines and columns. -/

namespace QueryTemplate

/-- The bytes from `start` up to, not including, `stop`. -/
structure Span where
  start : Nat
  stop : Nat
deriving DecidableEq, Repr, Inhabited

namespace Span

/-- From the start of the first span to the end of the second. -/
def through (first last : Span) : Span := ⟨first.start, last.stop⟩

def text (span : Span) : String := toString span.start ++ ".." ++ toString span.stop

@[simp] theorem start_through (first last : Span) : (first.through last).start = first.start := rfl

@[simp] theorem stop_through (first last : Span) : (first.through last).stop = last.stop := rfl

end Span

structure Located (α : Type) where
  value : α
  span : Span
deriving DecidableEq, Repr, Inhabited

/-- A line and a column, both counted from one. -/
structure Position where
  line : Nat
  column : Nat
deriving DecidableEq, Repr, Inhabited

namespace Position

/-- The characters after which a new line begins. A carriage return and a line feed after it end
one line together. -/
def endsLine (c : Char) : Bool :=
  c == '\n' || c == '\r' || c == '\x0b' || c == '\x0c' || c.toNat == 0x85 ||
  c.toNat == 0x2028 || c.toNat == 0x2029

def next (position : Position) (c : Char) (rest : List Char) : Position :=
  if endsLine c && !(c == '\r' && rest.head? == some '\n') then ⟨position.line + 1, 1⟩
  else ⟨position.line, position.column + 1⟩

/-- The position `offset` bytes further on. -/
def advance (position : Position) (offset : Nat) : List Char → Position
  | [] => position
  | c :: rest =>
    if offset = 0 then position
    else (position.next c rest).advance (offset - c.utf8Size) rest

def ofOffset (source : String) (offset : Nat) : Position :=
  advance ⟨1, 1⟩ offset source.toList

def text (position : Position) : String :=
  toString position.line ++ ":" ++ toString position.column

end Position

end QueryTemplate
