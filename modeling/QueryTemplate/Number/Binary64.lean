set_option autoImplicit false

/- Numbers of the 64-bit binary floating-point format, NaN excepted. The magnitude is the encoding
without its sign bit, so magnitudes are ordered as the numbers they stand for, and the two zeros
differ only in their sign. Quotients are rounded to the nearest integer, by a rule for ties. -/

namespace QueryTemplate

/-- Where a quotient goes that lies halfway between two integers. -/
inductive Tie
  | toEven
  | up
deriving DecidableEq, Repr

/-- The integer for a quotient halfway between `quotient` and its successor. -/
def Tie.settle : Tie → Nat → Nat
  | toEven, quotient => quotient + quotient % 2
  | up, quotient => quotient + 1

/-- The integer nearest to `numerator / denominator`. -/
def roundDiv (tie : Tie) (numerator denominator : Nat) : Nat :=
  let quotient := numerator / denominator
  let twice := 2 * (numerator % denominator)
  if twice < denominator then quotient
  else if denominator < twice then quotient + 1
  else tie.settle quotient

@[simp] theorem roundDiv_one (tie : Tie) (numerator : Nat) :
    roundDiv tie numerator 1 = numerator := by
  simp [roundDiv, Nat.mod_one]

def twoPow (exponent : Nat) : Nat := Nat.pow 2 exponent

def tenPow (exponent : Nat) : Nat := Nat.pow 10 exponent

@[simp] theorem twoPow_zero : twoPow 0 = 1 := rfl

@[simp] theorem tenPow_zero : tenPow 0 = 1 := rfl

theorem twoPow_succ (exponent : Nat) : twoPow (exponent + 1) = 2 * twoPow exponent :=
  Nat.mul_comm _ _

theorem tenPow_succ (exponent : Nat) : tenPow (exponent + 1) = 10 * tenPow exponent :=
  Nat.mul_comm _ _

theorem twoPow_pos (exponent : Nat) : 0 < twoPow exponent := by
  induction exponent with
  | zero => exact Nat.one_pos
  | succ exponent ih => rw [twoPow_succ]; omega

theorem tenPow_pos (exponent : Nat) : 0 < tenPow exponent := by
  induction exponent with
  | zero => exact Nat.one_pos
  | succ exponent ih => rw [tenPow_succ]; omega

structure Binary64 where
  negative : Bool
  magnitude : Nat
  bounded : magnitude ≤ 2047 * twoPow 52 := by decide
deriving DecidableEq, Repr

namespace Binary64

/-- The magnitude that encodes infinity. -/
def infinity : Nat := 2047 * twoPow 52

def zero : Binary64 := ⟨false, 0, by decide⟩

instance : Inhabited Binary64 := ⟨zero⟩

def isFinite (x : Binary64) : Bool := x.magnitude < infinity

def isZero (x : Binary64) : Bool := x.magnitude == 0

def negate (x : Binary64) : Binary64 := { x with negative := !x.negative }

def withSign (x : Binary64) (negative : Bool) : Binary64 := { x with negative }

/-- Orders numbers by value; both zeros have key 0. -/
def key (x : Binary64) : Int := if x.negative then -x.magnitude else x.magnitude

/-- The significand and the scale: the value is `significand * 2 ^ scale` units of `2 ^ -1074`. -/
def parts (x : Binary64) : Nat × Nat :=
  let scale := x.magnitude / twoPow 52
  let fraction := x.magnitude % twoPow 52
  if scale = 0 then (fraction, 0) else (twoPow 52 + fraction, scale - 1)

/-- The absolute value in units of `2 ^ -1074`, the least positive number of the format. -/
def units (x : Binary64) : Nat := x.parts.1 * twoPow x.parts.2

/-- The nearest number of the format, a tie going to the even significand; quotients beyond the
largest finite number become infinite. -/
def ofRatio (negative : Bool) (numerator denominator : Nat) : Binary64 :=
  let scaled := numerator * twoPow 1074
  let scale := Nat.log2 (scaled / denominator) - 52
  let magnitude := scale * twoPow 52 + roundDiv .toEven scaled (denominator * twoPow scale)
  ⟨negative, min magnitude infinity, Nat.min_le_right _ _⟩

def ofInt (value : Int) : Binary64 := ofRatio (decide (value < 0)) value.natAbs 1

/-- The product of two finite numbers, rounded once. -/
def mul (x y : Binary64) : Binary64 :=
  ofRatio (x.negative != y.negative) (x.units * y.units) (twoPow 2148)

/-- The quotient of a finite number by a finite number that is not zero, rounded once. -/
def div (x y : Binary64) : Binary64 := ofRatio (x.negative != y.negative) x.units y.units

end Binary64

end QueryTemplate
