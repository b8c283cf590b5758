import QueryTemplate.Number.DecimalText
import QueryTemplate.Toml.Quoted

set_option autoImplicit false

/- Values that hold no other values: strings, numbers, booleans, dates and times. -/

namespace QueryTemplate.Toml

inductive Scalar
  | string (value : String)
  | integer (value : Int)
  | float (value : Binary64)
  | nan
  | boolean (value : Bool)
  /-- A date, a time or both, as it is spelled. -/
  | dateTime (spelling : String)
deriving DecidableEq, Repr, Inhabited

/-- Digits, between which single underscores may stand. -/
def digitRun (isDigit : Char → Bool) : Scan (List Char) := do
  let first ← Scan.satisfy isDigit
  let rest ← Scan.many
    (Scan.satisfy isDigit <|> (Scan.char '_' *> Scan.satisfy isDigit))
  return first :: rest

/-- Whether a minus stands here; the sign may be left out. -/
def sign : Scan Bool :=
  (Scan.char '-' *> pure true) <|> (Scan.char '+' *> pure false) <|> pure false

/-- Decimal digits without a leading zero, unless that is all. -/
def wholeDigits : Scan (List Char) := do
  let digits ← digitRun Char.isDigit
  match digits with
  | '0' :: _ :: _ => failure
  | _ => return digits

def decimalInteger : Scan Int := do
  let negative ← sign
  let digits ← wholeDigits
  let value : Int := Decimal.readNat digits
  return if negative then -value else value

/-- Digits of another base after a zero and the letter of the base. -/
def basedInteger (letter : Char) (base : Nat) : Scan Int := do
  Scan.exactly ['0', letter]
  let digits ← digitRun fun c => (Text.hexValue? c).any (· < base)
  return (digits.foldl (fun value c => value * base + (Text.hexValue? c).getD 0) 0 : Nat)

/-- Integers have 64 bits. -/
def integer : Scan Int := do
  let value ← basedInteger 'x' 16 <|> basedInteger 'o' 8 <|> basedInteger 'b' 2 <|> decimalInteger
  if -(twoPow 63 : Int) ≤ value ∧ value < twoPow 63 then return value else failure

/-- The number nearest to digits with a power of ten. -/
def nearest (negative : Bool) (digits : List Char) (exponent : Int) : Binary64 :=
  let significand := Decimal.readNat digits
  if significand = 0 ∨ exponent + digits.length < -330 then Binary64.zero.withSign negative
  else if 330 < exponent then
    ⟨negative, Binary64.infinity, Nat.le_refl _⟩
  else if 0 ≤ exponent then Binary64.ofRatio negative (significand * tenPow exponent.toNat) 1
  else Binary64.ofRatio negative significand (tenPow (-exponent).toNat)

def fractionDigits : Scan (List Char) := Scan.char '.' *> digitRun Char.isDigit

def exponentPart : Scan Int := do
  let _ ← Scan.satisfy fun c => c == 'e' || c == 'E'
  let negative ← sign
  let digits ← digitRun Char.isDigit
  let value : Int := Decimal.readNat digits
  return if negative then -value else value

/-- Numbers with a fraction, an exponent or both. One that is too large is refused. -/
def decimalFloat : Scan Binary64 := do
  let negative ← sign
  let whole ← wholeDigits
  let (fraction, exponent) ←
    (do
      let fraction ← fractionDigits
      let exponent ← exponentPart <|> pure 0
      return (fraction, exponent)) <|>
    (do
      let exponent ← exponentPart
      return ([], exponent))
  let value := nearest negative (whole ++ fraction) (exponent - fraction.length)
  if value.isFinite || negative then return value else failure

def specialFloat : Scan Scalar := do
  let negative ← sign
  (Scan.exactly ['i', 'n', 'f'] *>
      pure (.float ⟨negative, Binary64.infinity, Nat.le_refl _⟩)) <|>
    (Scan.exactly ['n', 'a', 'n'] *> pure .nan)

def boolean : Scan Bool :=
  (Scan.exactly "true".toList *> pure true) <|> (Scan.exactly "false".toList *> pure false)

/-- A number in a fixed count of decimal digits, within bounds. -/
def number (digits least most : Nat) : Scan Nat := do
  let chars ← (List.replicate digits ()).mapM fun _ => Scan.satisfy Char.isDigit
  let value := Decimal.readNat chars
  if least ≤ value ∧ value ≤ most then return value else failure

def daysInMonth (year month : Nat) : Nat :=
  if month = 2 then
    if year % 4 = 0 ∧ (year % 100 ≠ 0 ∨ year % 400 = 0) then 29 else 28
  else if month = 4 ∨ month = 6 ∨ month = 9 ∨ month = 11 then 30
  else 31

def date : Scan Unit := do
  let year ← number 4 0 9999
  Scan.char '-'
  let month ← number 2 1 12
  Scan.char '-'
  let _ ← number 2 1 (daysInMonth year month)

/-- A minute may have a leap second. -/
def time : Scan Unit := do
  let _ ← number 2 0 23
  Scan.char ':'
  let _ ← number 2 0 59
  Scan.char ':'
  let _ ← number 2 0 60
  (do
      Scan.char '.'
      let _ ← Scan.satisfy Char.isDigit
      let _ ← Scan.takeWhile Char.isDigit) <|> pure ()

def zone : Scan Unit :=
  (do let _ ← Scan.satisfy fun c => c == 'Z' || c == 'z') <|>
    (do
      let _ ← Scan.satisfy fun c => c == '+' || c == '-'
      let _ ← number 2 0 23
      Scan.char ':'
      let _ ← number 2 0 59)

def dateTime : Scan Unit :=
  (do
      date
      (do
          let _ ← Scan.satisfy fun c => c == 'T' || c == 't' || c == ' '
          time
          (zone <|> pure ())) <|> pure ()) <|> time

def scalar : Scan Scalar :=
  (do return .string (← quoted)) <|>
    (do return .boolean (← boolean)) <|>
    (do return .dateTime (String.ofList (← Scan.spelling dateTime))) <|>
    (do return .float (← decimalFloat)) <|>
    specialFloat <|>
    (do return .integer (← integer))

end QueryTemplate.Toml
