set_option autoImplicit false

/- Scans of a text by ordered choice. A scan gives what it read and the characters left, or fails
and leaves the text to the next alternative. -/

namespace QueryTemplate.Toml

abbrev Scan (α : Type) : Type := StateT (List Char) Option α

namespace Scan

variable {α : Type}

def satisfy (p : Char → Bool) : Scan Char
  | c :: rest => if p c then some (c, rest) else none
  | [] => none

def char (c : Char) : Scan Unit := do
  let _ ← satisfy (· == c)

/-- Reads the given characters. -/
def exactly (text : List Char) : Scan Unit := text.forM char

def takeWhile (p : Char → Bool) : Scan (List Char) :=
  fun chars => some (chars.takeWhile p, chars.dropWhile p)

/-- Reads nothing; the next character, which must exist, has the property. -/
def nextIs (p : Char → Bool) : Scan Unit
  | c :: rest => if p c then some ((), c :: rest) else none
  | [] => none

def atEnd : Scan Unit
  | [] => some ((), [])
  | _ :: _ => none

/-- Reads as often as it can, but not more often than the bound. -/
def manyUpTo (bound : Nat) (scan : Scan α) : Scan (List α) :=
  match bound with
  | 0 => pure []
  | bound + 1 => fun chars =>
    match scan chars with
    | none => some ([], chars)
    | some (item, rest) =>
      match manyUpTo bound scan rest with
      | none => some ([item], rest)
      | some (items, last) => some (item :: items, last)

/-- Reads as often as it can; what is repeated must read at least one character each time. -/
def many (scan : Scan α) : Scan (List α) := fun chars => manyUpTo chars.length scan chars

/-- Reads one or more items with separators between them. -/
def separated (separator : Scan Unit) (item : Scan α) : Scan (List α) := do
  let first ← item
  let rest ← many (separator *> item)
  return first :: rest

/-- The characters that a scan reads. -/
def spelling (scan : Scan α) : Scan (List Char) := fun chars =>
  match scan chars with
  | none => none
  | some (_, rest) => some (chars.take (chars.length - rest.length), rest)

end Scan

def isTomlBlank (c : Char) : Bool := c == ' ' || c == '\t'

/-- Printable characters and tabs. -/
def isPlain (c : Char) : Bool := c == '\t' || (32 ≤ c.toNat && c.toNat ≠ 127)

def blanks : Scan Unit := do
  let _ ← Scan.takeWhile isTomlBlank

def newline : Scan Unit := Scan.char '\n' <|> Scan.exactly ['\r', '\n']

def comment : Scan Unit := do
  Scan.char '#'
  let _ ← Scan.takeWhile isPlain

/-- Blanks and a comment up to the end of the line. -/
def lineEnd : Scan Unit := do
  blanks
  (comment <|> pure ())
  (newline <|> Scan.atEnd)

/-- Blanks, line breaks and comments, which may stand anywhere between the items of an array. -/
def filler : Scan Unit := do
  let _ ← Scan.many
    ((do let _ ← Scan.satisfy isTomlBlank) <|> newline <|> (comment *> newline))

end QueryTemplate.Toml
