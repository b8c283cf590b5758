import QueryTemplate.Text.Basic

set_option autoImplicit false

/- Strings in JSON notation. Quotes, backslashes and control characters are escaped; a reader takes
every escape of the format. -/

namespace QueryTemplate.Json.Quoted

def hexDigit (n : Nat) : Char := Nat.digitChar n

def encodeChar (c : Char) : List Char :=
  if c = '"' then ['\\', '"']
  else if c = '\\' then ['\\', '\\']
  else if c = '\x08' then ['\\', 'b']
  else if c = '\t' then ['\\', 't']
  else if c = '\n' then ['\\', 'n']
  else if c = '\x0c' then ['\\', 'f']
  else if c = '\r' then ['\\', 'r']
  else if c.toNat < 32 then
    ['\\', 'u', '0', '0', hexDigit (c.toNat / 16), hexDigit (c.toNat % 16)]
  else [c]

def encode (chars : List Char) : List Char := '"' :: chars.flatMap encodeChar ++ ['"']

/-- What one character or escape between the quotes denotes: a character, or a code unit of
UTF-16. -/
inductive Piece
  | char (c : Char)
  | unit (code : Nat)
deriving DecidableEq, Repr

def hexUnit? (a b c d : Char) : Option Nat := do
  let a ← Text.hexValue? a
  let b ← Text.hexValue? b
  let c ← Text.hexValue? c
  let d ← Text.hexValue? d
  return ((a * 16 + b) * 16 + c) * 16 + d

def escapedChar? (c : Char) : Option Char :=
  if c = '"' ∨ c = '\\' ∨ c = '/' then some c
  else if c = 'b' then some '\x08'
  else if c = 't' then some '\t'
  else if c = 'n' then some '\n'
  else if c = 'f' then some '\x0c'
  else if c = 'r' then some '\r'
  else none

/-- The pieces up to the closing quote and the characters after it. -/
def scan : List Char → Option (List Piece × List Char)
  | [] => none
  | '"' :: rest => some ([], rest)
  | '\\' :: 'u' :: a :: b :: c :: d :: rest =>
    match hexUnit? a b c d, scan rest with
    | some code, some (pieces, rest) => some (.unit code :: pieces, rest)
    | _, _ => none
  | '\\' :: c :: rest =>
    match escapedChar? c, scan rest with
    | some c, some (pieces, rest) => some (.char c :: pieces, rest)
    | _, _ => none
  | c :: rest =>
    if c = '\\' ∨ c.toNat < 32 then none
    else
      match scan rest with
      | some (pieces, rest) => some (.char c :: pieces, rest)
      | none => none

def isLeading (code : Nat) : Bool := 0xD800 ≤ code && code < 0xDC00

def isTrailing (code : Nat) : Bool := 0xDC00 ≤ code && code < 0xE000

/-- The text of the pieces; a surrogate without its partner has none. -/
def assemble : List Piece → Option (List Char)
  | [] => some []
  | .char c :: rest => (assemble rest).map (c :: ·)
  | .unit leading :: .unit trailing :: rest =>
    if isLeading leading then
      if isTrailing trailing then
        let point := 0x10000 + (leading - 0xD800) * 0x400 + (trailing - 0xDC00)
        (assemble rest).map (Char.ofNat point :: ·)
      else none
    else if isTrailing leading then none
    else (assemble (.unit trailing :: rest)).map (Char.ofNat leading :: ·)
  | .unit code :: rest =>
    if isLeading code || isTrailing code then none
    else (assemble rest).map (Char.ofNat code :: ·)

theorem scan_length {chars rest : List Char} {pieces : List Piece}
    (read : scan chars = some (pieces, rest)) : rest.length < chars.length := by
  fun_induction scan chars generalizing pieces rest with
  | case1 => simp at read
  | case2 => simp at read; simp [read]
  | case3 a b c d tail code inner after found _ ih =>
    simp at read
    have := ih found
    simp [← read.2]; omega
  | case5 c tail _ image inner after found _ ih =>
    simp at read
    have := ih found
    simp [← read.2]; omega
  | case8 c tail _ _ _ _ inner after found ih =>
    simp at read
    have := ih found
    simp [← read.2]; omega
  | _ => simp at read

end QueryTemplate.Json.Quoted
