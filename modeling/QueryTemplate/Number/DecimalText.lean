import QueryTemplate.Number.Shortest

set_option autoImplicit false

/- Written forms of numbers, and the numbers that runs of decimal digits stand for. -/

namespace QueryTemplate

namespace Decimal

/-- The decimal digits of a natural number, the first being zero only for zero itself. -/
def natText (n : Nat) : List Char := Nat.toDigits 10 n

def digitValue (c : Char) : Nat := c.toNat - '0'.toNat

/-- Reads decimal digits onto a number already read. -/
def readOnto (start : Nat) (digits : List Char) : Nat :=
  digits.foldl (fun n c => n * 10 + digitValue c) start

def readNat (digits : List Char) : Nat := readOnto 0 digits

def zeros (count : Nat) : List Char := List.replicate count '0'

/-- Positional notation, with a point only where a fraction follows it. -/
def plain (d : Decimal) : List Char :=
  let digits := natText d.digits
  if 0 ≤ d.exponent then digits ++ zeros d.exponent.toNat
  else
    let places := (-d.exponent).toNat
    if places < digits.length then
      digits.take (digits.length - places) ++ '.' :: digits.drop (digits.length - places)
    else '0' :: '.' :: zeros (places - digits.length) ++ digits

/-- One digit before the point; the exponent carries its sign and no leading zero. -/
def scientific (d : Decimal) : List Char :=
  let significand := match natText d.digits with
    | first :: second :: rest => first :: '.' :: second :: rest
    | digits => digits
  let sign := if d.leading < 0 then '-' else '+'
  significand ++ 'e' :: sign :: natText d.leading.natAbs

end Decimal

namespace Binary64

def signText (x : Binary64) : List Char := if x.negative then ['-'] else []

/-- Positional notation of the shortest decimal, whatever its length, and of two equally near
decimals the greater one. -/
def displayText (x : Binary64) : List Char :=
  if x.isFinite then x.signText ++ (Decimal.shortest .up x).plain else x.signText ++ "inf".toList

/-- Positional notation with a fraction for leading exponents from -5 to 15, scientific notation
otherwise; of two equally near decimals the one whose last digit is even. -/
def jsonText (x : Binary64) : List Char :=
  let d := Decimal.shortest .toEven x
  if -5 ≤ d.leading ∧ d.leading < 16 then
    if d.exponent < 0 then x.signText ++ d.plain else x.signText ++ d.plain ++ ".0".toList
  else x.signText ++ d.scientific

end Binary64

/-- The decimal digits of an integer, after a sign when it is negative. -/
def intText (value : Int) : List Char :=
  if value < 0 then '-' :: Decimal.natText value.natAbs else Decimal.natText value.natAbs

end QueryTemplate
