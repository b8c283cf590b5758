import QueryTemplate.Template.ParseError
import QueryTemplate.Text.Utf8

set_option autoImplicit false

/- From the characters of a template to its tokens. Raw text lies between code regions; in a region
the longest token counts, and the region ends with the first token that is its closer. Comments
leave no token. -/

namespace QueryTemplate

namespace Token

def isWordStart (c : Char) : Bool := c.isAlpha || c == '_'

def isWordRest (c : Char) : Bool := c.isAlphanum || c == '_'

/-- White space between the tokens of a region. -/
def isGap (c : Char) : Bool := c == ' ' || c == '\t' || c == '\n' || c == '\r'

def unescape (c : Char) : Char :=
  if c = 'n' then '\n' else if c = 't' then '\t' else if c = 'r' then '\r' else c

/-- The contents of a string literal after its opening quote, and the number of characters up to
and including the closing quote. A backslash takes the next character with it, which cannot be a
line feed. Without a closing quote, the number of characters that could belong to the literal. -/
def scanString (quote : Char) : List Char → Except Nat (List Char × Nat)
  | [] => .error 0
  | '\\' :: c :: rest =>
    if c = '\n' then .error 0
    else
      match scanString quote rest with
      | .ok (content, count) => .ok (unescape c :: content, count + 2)
      | .error count => .error (count + 2)
  | c :: rest =>
    if c = quote then .ok ([], 1)
    else if c = '\\' then .error 0
    else
      match scanString quote rest with
      | .ok (content, count) => .ok (c :: content, count + 1)
      | .error count => .error (count + 1)

/-- The largest integer literal. -/
def maxInt : Nat := twoPow 63 - 1

/-- A number after its first digit: a fraction makes it a floating-point number. -/
def scanNumber (first : Char) (rest : List Char) : Except Nat (Token × Nat) :=
  let digits := rest.takeWhile Char.isDigit
  match rest.dropWhile Char.isDigit with
  | '.' :: d :: after =>
    if d.isDigit then
      let fraction := d :: after.takeWhile Char.isDigit
      let numerator := Decimal.readNat (first :: digits ++ fraction)
      .ok (.float (Binary64.ofRatio false numerator (tenPow fraction.length)),
        digits.length + 1 + fraction.length)
    else whole digits
  | _ => whole digits
where
  whole (digits : List Char) : Except Nat (Token × Nat) :=
    let value := Decimal.readNat (first :: digits)
    if value ≤ maxInt then .ok (.int value, digits.length) else .error digits.length

def scanMark (first : Char) (rest : List Char) : Except Nat (Mark × Nat) :=
  match first, rest with
  | '=', '=' :: _ => .ok (.eq, 1)
  | '!', '=' :: _ => .ok (.notEq, 1)
  | '<', '=' :: _ => .ok (.lessEq, 1)
  | '>', '=' :: _ => .ok (.greaterEq, 1)
  | '{', '{' :: _ => .ok (.outputOpen, 1)
  | '}', '}' :: _ => .ok (.outputClose, 1)
  | '{', '%' :: _ => .ok (.tagOpen, 1)
  | '%', '}' :: _ => .ok (.tagClose, 1)
  | '=', _ => .ok (.assign, 0)
  | '<', _ => .ok (.less, 0)
  | '>', _ => .ok (.greater, 0)
  | '|', _ => .ok (.pipe, 0)
  | '.', _ => .ok (.dot, 0)
  | ',', _ => .ok (.comma, 0)
  | '(', _ => .ok (.parenOpen, 0)
  | ')', _ => .ok (.parenClose, 0)
  | _, _ => .error 0

/-- The longest token that begins with `first`, and how many characters of it follow; or how many
belong to what cannot be read. -/
def scan (first : Char) (rest : List Char) : Except Nat (Token × Nat) :=
  if isWordStart first then
    let word := rest.takeWhile isWordRest
    .ok (ofWord (String.ofList (first :: word)), word.length)
  else if first.isDigit then scanNumber first rest
  else if first = '"' ∨ first = '\x27' then
    (scanString first rest).map fun (content, count) => (.string (String.ofList content), count)
  else (scanMark first rest).map fun (read, count) => (.mark read, count)

end Token

namespace Region

/-- The mark that ends a region. A comment ends in no mark. -/
def closer? : Region → Option Mark
  | comment => none
  | output => some .outputClose
  | tag => some .tagClose

end Region

namespace Lexer

/-- The tokens of a region up to and including its closer, the place after it, and the characters
left. -/
structure Scanned (chars : List Char) where
  tokens : List (Located Token)
  stop : Nat
  rest : List Char
  shorter : rest.length ≤ chars.length

/-- Reads the inside of a region that opened at `opener`. -/
def scanRegion (region : Region) (opener : Span) (place : Nat) :
    (chars : List Char) → Except ParseError (Scanned chars)
  | [] => .error (.unterminated region opener)
  | first :: rest =>
    if Token.isGap first then
      match scanRegion region opener (place + 1) rest with
      | .error error => .error error
      | .ok inner => .ok ⟨inner.tokens, inner.stop, inner.rest, by
          have := inner.shorter; simp; omega⟩
    else
      match Token.scan first rest with
      | .error count =>
        let slice := first :: rest.take count
        .error (.unreadable (String.ofList slice) ⟨place, place + Text.byteLength slice⟩)
      | .ok (token, count) =>
        let stop := place + Text.byteLength (first :: rest.take count)
        let located : Located Token := ⟨token, ⟨place, stop⟩⟩
        if some token = region.closer?.map Token.mark then
          .ok ⟨[located], stop, rest.drop count, by simp; omega⟩
        else
          match scanRegion region opener stop (rest.drop count) with
          | .error error => .error error
          | .ok inner => .ok ⟨located :: inner.tokens, inner.stop, inner.rest, by
              have := inner.shorter
              rw [List.length_drop] at this
              rw [List.length_cons]; omega⟩
termination_by chars => chars.length
decreasing_by all_goals simp; try omega

/-- The characters after the first `#}`, and their place. -/
def skipComment (place : Nat) : List Char → Option (Nat × List Char)
  | '#' :: '}' :: rest => some (place + 2, rest)
  | c :: rest => skipComment (place + c.utf8Size) rest
  | [] => none

theorem skipComment_length {place stop : Nat} {chars rest : List Char}
    (found : skipComment place chars = some (stop, rest)) : rest.length < chars.length := by
  fun_induction skipComment place chars with
  | case1 place tail =>
    simp only [Option.some.injEq, Prod.mk.injEq] at found
    rw [← found.2, List.length_cons, List.length_cons]
    omega
  | case2 place c tail _ ih =>
    have := ih found
    rw [List.length_cons]
    omega
  | case3 => simp at found

/-- The raw text before the first opener, and the characters from there on. -/
def splitText : List Char → List Char × List Char
  | [] => ([], [])
  | '{' :: c :: rest =>
    if c = '{' ∨ c = '%' ∨ c = '#' then ([], '{' :: c :: rest)
    else
      let (text, after) := splitText (c :: rest)
      ('{' :: text, after)
  | c :: rest =>
    let (text, after) := splitText rest
    (c :: text, after)

theorem splitText_append (chars : List Char) :
    (splitText chars).1 ++ (splitText chars).2 = chars := by
  fun_induction splitText chars <;> simp_all

theorem splitText_length (chars : List Char) :
    (splitText chars).2.length ≤ chars.length := by
  have same := congrArg List.length (splitText_append chars)
  rw [List.length_append] at same
  omega

theorem splitText_rest {chars rest : List Char} {first second : Char}
    (found : (splitText chars).2 = first :: second :: rest) : rest.length < chars.length := by
  have := splitText_length chars
  rw [found, List.length_cons, List.length_cons] at this
  omega

def textToken (place : Nat) (text : List Char) : List (Located Token) :=
  if text = [] then []
  else [⟨.text (String.ofList text), ⟨place, place + Text.byteLength text⟩⟩]

/-- Reads a template from a place outside the code regions. -/
def scanSource (place : Nat) (chars : List Char) : Except ParseError (List (Located Token)) :=
  let text := (splitText chars).1
  let start := place + Text.byteLength text
  let opener : Span := ⟨start, start + 2⟩
  let before := textToken place text
  match found : (splitText chars).2 with
  | '{' :: '{' :: rest =>
    have : rest.length < chars.length := splitText_rest found
    match scanRegion .output opener (start + 2) rest with
    | .error error => .error error
    | .ok inner =>
      have := inner.shorter
      match scanSource inner.stop inner.rest with
      | .error error => .error error
      | .ok after => .ok (before ++ ⟨.mark .outputOpen, opener⟩ :: inner.tokens ++ after)
  | '{' :: '%' :: rest =>
    have : rest.length < chars.length := splitText_rest found
    match scanRegion .tag opener (start + 2) rest with
    | .error error => .error error
    | .ok inner =>
      have := inner.shorter
      match scanSource inner.stop inner.rest with
      | .error error => .error error
      | .ok after => .ok (before ++ ⟨.mark .tagOpen, opener⟩ :: inner.tokens ++ after)
  | '{' :: '#' :: rest =>
    have : rest.length < chars.length := splitText_rest found
    match skipped : skipComment (start + 2) rest with
    | none => .error (.unterminated .comment opener)
    | some (stop, after) =>
      have : after.length < rest.length := skipComment_length skipped
      match scanSource stop after with
      | .error error => .error error
      | .ok after => .ok (before ++ after)
  | _ => .ok before
termination_by chars.length

end Lexer

def tokens (source : String) : Except ParseError (List (Located Token)) :=
  Lexer.scanSource 0 source.toList

end QueryTemplate
