import QueryTemplate.Text.Basic
import QueryTemplate.Toml.Scan

set_option autoImplicit false

/- Strings and keys. Basic strings stand in double quotes and know escapes; literal strings stand in
single quotes and know none. Either kind may span lines between triple quotes, where up to two
quotes in a row are characters of the string. -/

namespace QueryTemplate.Toml

namespace Quoted

def hexDigit : Scan Nat
  | c :: rest => (Text.hexValue? c).map fun digit => (digit, rest)
  | [] => none

/-- A code point in a number of hexadecimal digits. -/
def codePoint (digits : Nat) : Scan Char := do
  let values ← (List.replicate digits ()).mapM fun _ => hexDigit
  let code := values.foldl (fun code digit => code * 16 + digit) 0
  if code.isValidChar then return Char.ofNat code else failure

/-- An escape after its backslash. -/
def escaped : Scan Char := do
  let c ← Scan.satisfy fun _ => true
  match c with
  | 'b' => return '\x08'
  | 't' => return '\t'
  | 'n' => return '\n'
  | 'f' => return '\x0c'
  | 'r' => return '\r'
  | '"' => return '"'
  | '\\' => return '\\'
  | 'u' => codePoint 4
  | 'U' => codePoint 8
  | _ => failure

def basicChar : Scan Char :=
  Scan.satisfy (fun c => isPlain c && c != '"' && c != '\\') <|> (Scan.char '\\' *> escaped)

def literalChar : Scan Char := Scan.satisfy fun c => isPlain c && c != '\''

/-- A string within one line. -/
def line (quote : Char) (content : Scan Char) : Scan (List Char) := do
  Scan.char quote
  let chars ← Scan.many content
  Scan.char quote
  return chars

/-- A backslash at the end of a line skips the white space up to the next character. -/
def continuation : Scan Unit := do
  Scan.char '\\'
  blanks
  newline
  let _ ← Scan.many (newline <|> (do let _ ← Scan.satisfy isTomlBlank))

/-- One or two quotes that do not close the string. -/
def innerQuotes (quote : Char) : Scan (List Char) :=
  (Scan.exactly [quote, quote] *> Scan.nextIs (· != quote) *> pure [quote, quote]) <|>
    (Scan.char quote *> Scan.nextIs (· != quote) *> pure [quote])

/-- The closing quotes, with the one or two that belong to the string before them. -/
def closing (quote : Char) : Scan (List Char) :=
  let close := Scan.exactly [quote, quote, quote]
  (Scan.exactly [quote, quote] *> close *> pure [quote, quote]) <|>
    (Scan.char quote *> close *> pure [quote]) <|> (close *> pure [])

/-- A string between triple quotes; a line break right after the opening ones is dropped. -/
def multiline (quote : Char) (content : Scan (List Char)) : Scan (List Char) := do
  Scan.exactly [quote, quote, quote]
  (newline <|> pure ())
  let pieces ← Scan.many
    (content <|> (newline *> pure ['\n']) <|> innerQuotes quote)
  let last ← closing quote
  return pieces.flatten ++ last

def multilineBasic : Scan (List Char) :=
  multiline '"' ((continuation *> pure []) <|> (do return [← basicChar]))

def multilineLiteral : Scan (List Char) := multiline '\'' (do return [← literalChar])

end Quoted

def quoted : Scan String := do
  let chars ← Quoted.multilineBasic <|> Quoted.line '"' Quoted.basicChar <|>
    Quoted.multilineLiteral <|> Quoted.line '\'' Quoted.literalChar
  return String.ofList chars

def isBareKeyChar (c : Char) : Bool := c.isAlphanum || c == '_' || c == '-'

def bareKey : Scan (List Char) := do
  let first ← Scan.satisfy isBareKeyChar
  let rest ← Scan.takeWhile isBareKeyChar
  return first :: rest

def simpleKey : Scan String := do
  let chars ← Quoted.line '"' Quoted.basicChar <|> Quoted.line '\'' Quoted.literalChar <|> bareKey
  return String.ofList chars

/-- How many keys may be joined by dots. -/
def maxKeys : Nat := 79

/-- A key and the keys that lead to it. -/
structure Path where
  parents : List String
  key : String
deriving DecidableEq, Repr, Inhabited

def path : Scan Path := do
  let keys ← Scan.separated (Scan.char '.') (blanks *> simpleKey <* blanks)
  match keys.getLast? with
  | some key => if keys.length ≤ maxKeys then return ⟨keys.dropLast, key⟩ else failure
  | none => failure

end QueryTemplate.Toml
