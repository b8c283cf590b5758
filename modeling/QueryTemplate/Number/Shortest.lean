import QueryTemplate.Number.Binary64

set_option autoImplicit false

/- The shortest decimal that reads back as a given number: among the decimals that round to it the
ones with the fewest digits, and of those the nearest. Whoever writes the decimal says which of two
equally near ones it is. -/

namespace QueryTemplate

/-- The value `digits * 10 ^ exponent`. -/
structure Decimal where
  digits : Nat
  exponent : Int
deriving DecidableEq, Repr

namespace Decimal

def digitCount (n : Nat) : Nat := (Nat.toDigits 10 n).length

/-- The exponent of the leading digit: one digit stands before the point in scientific notation. -/
def leading (d : Decimal) : Int := d.exponent + digitCount d.digits - 1

/-- Decimals are compared after multiplication by this power of ten, which makes every decimal of
up to 17 digits in the format's range an integer. -/
def shift : Nat := 342

/-- One decimal place, `10 ^ (place - shift)`, measured as interval ends are. -/
def unitAt (place : Nat) : Nat := tenPow place * twoPow 1076

/-- Ends are measured in quarters of `2 ^ -1074`, times `10 ^ shift`. -/
structure Interval where
  low : Nat
  value : Nat
  high : Nat
  closed : Bool

/-- The reals that round to a number. A number whose significand is least in its binade has its
lower neighbour at half the distance; the ends belong to the interval when the significand is
even. -/
def interval (x : Binary64) : Interval :=
  let (significand, scale) := x.parts
  let below := if significand = twoPow 52 ∧ 0 < scale then 1 else 2
  let quarter := twoPow scale * tenPow shift
  { low := (4 * significand - below) * quarter
    value := 4 * significand * quarter
    high := (4 * significand + 2) * quarter
    closed := significand % 2 = 0 }

def Interval.contains (i : Interval) (point : Nat) : Bool :=
  (decide (i.low < point) && decide (point < i.high)) ||
    (i.closed && (point == i.low || point == i.high))

/-- The best multiple of a unit, if one lies in the interval. -/
def Interval.nearest (tie : Tie) (i : Interval) (unit : Nat) : Option Nat :=
  let below := i.value / unit
  let belowFits := i.contains (below * unit)
  let aboveFits := i.contains ((below + 1) * unit)
  match belowFits, aboveFits with
  | true, true => some (roundDiv tie i.value unit)
  | true, false => some below
  | false, true => some (below + 1)
  | false, false => none

/-- Tries the places from `place` downwards, `unit` being what one of a place is worth. -/
def Interval.search (tie : Tie) (unit : Nat → Nat) (i : Interval) : (place : Nat) → Nat × Nat
  | 0 => (i.value / unit 0, 0)
  | place + 1 =>
    match i.nearest tie (unit (place + 1)) with
    | some digits => (digits, place + 1)
    | none => i.search tie unit place

/-- The shortest decimal for the absolute value of a finite number. -/
def shortest (tie : Tie) (x : Binary64) : Decimal :=
  if x.isZero then ⟨0, 0⟩
  else
    let i := interval x
    let found := i.search tie unitAt (digitCount (i.value / unitAt 0))
    ⟨found.1, found.2 - shift⟩

end Decimal

end QueryTemplate
