import QueryTemplate.Json.Basic
import QueryTemplate.Number.DecimalText

set_option autoImplicit false

/- Numbers in JSON notation and what they denote. An integer in the range of 64 bits is kept
exactly. Every other number becomes a floating-point number by way of a significand of at most 64
bits and a power of ten: both steps round, so the result may miss the nearest number by a little. -/

namespace QueryTemplate

structure NumberText where
  negative : Bool
  whole : List Char
  fraction : List Char
  /-- The digits of the exponent after its sign, which is true for a minus. -/
  exponent : Option (Bool × List Char)
deriving DecidableEq, Repr

namespace NumberText

/-- Digits after a point, none where there is no point. -/
def readFraction : List Char → Option (List Char × List Char)
  | '.' :: rest =>
    match rest.takeWhile Char.isDigit with
    | [] => none
    | digits => some (digits, rest.dropWhile Char.isDigit)
  | rest => some ([], rest)

def readExponentDigits (negative : Bool) (chars : List Char) :
    Option (Option (Bool × List Char) × List Char) :=
  match chars.takeWhile Char.isDigit with
  | [] => none
  | digits => some (some (negative, digits), chars.dropWhile Char.isDigit)

def readExponent : List Char → Option (Option (Bool × List Char) × List Char)
  | c :: rest =>
    if c = 'e' ∨ c = 'E' then
      match rest with
      | '+' :: digits => readExponentDigits false digits
      | '-' :: digits => readExponentDigits true digits
      | digits => readExponentDigits false digits
    else some (none, c :: rest)
  | [] => some (none, [])

/-- The whole part has no leading zero unless it is zero. -/
def readUnsigned (negative : Bool) (chars : List Char) : Option (NumberText × List Char) :=
  match chars.takeWhile Char.isDigit with
  | [] => none
  | '0' :: _ :: _ => none
  | whole =>
    match readFraction (chars.dropWhile Char.isDigit) with
    | none => none
    | some (fraction, rest) =>
      match readExponent rest with
      | none => none
      | some (exponent, rest) => some (⟨negative, whole, fraction, exponent⟩, rest)

def read : List Char → Option (NumberText × List Char)
  | '-' :: rest => readUnsigned true rest
  | chars => readUnsigned false chars

/-- The largest significand. -/
def significandMax : Nat := twoPow 64 - 1

/-- The largest exponent that is told apart from larger ones. -/
def exponentMax : Nat := twoPow 31 - 1

/-- Reads whole digits while the significand has room for them, and counts the digits left over. -/
def takeWhole (significand : Nat) : List Char → Nat × Nat
  | [] => (significand, 0)
  | c :: rest =>
    let next := significand * 10 + Decimal.digitValue c
    if next ≤ significandMax then takeWhole next rest else (significand, rest.length + 1)

/-- Reads digits of the fraction while the significand has room for them, and counts those read. -/
def takeFraction (significand : Nat) : List Char → Nat × Nat
  | [] => (significand, 0)
  | c :: rest =>
    let next := significand * 10 + Decimal.digitValue c
    if next ≤ significandMax then
      let (last, count) := takeFraction next rest
      (last, count + 1)
    else (significand, 0)

def powerOfTen (exponent : Nat) : Binary64 := Binary64.ofRatio false (tenPow exponent) 1

/-- Multiplies by a power of ten; a result beyond the largest finite number is refused. -/
def scale (x : Binary64) (exponent : Int) : Option Binary64 :=
  if exponent.natAbs ≤ 308 then
    if 0 ≤ exponent then
      let product := x.mul (powerOfTen exponent.natAbs)
      if product.isFinite then some product else none
    else some (x.div (powerOfTen exponent.natAbs))
  else if x.isZero then some x
  else if 0 ≤ exponent then none
  else scale (x.div (powerOfTen 308)) (exponent + 308)
termination_by exponent.natAbs
decreasing_by omega

def toFloat? (text : NumberText) : Option Binary64 :=
  let (whole, dropped) := takeWhole 0 text.whole
  let (significand, taken) := takeFraction whole text.fraction
  let start : Int := (dropped : Int) - taken
  let scaled := match text.exponent with
    | none => scale (Binary64.ofInt significand) start
    | some (negative, digits) =>
      let exponent := Decimal.readNat digits
      if exponent ≤ exponentMax then
        scale (Binary64.ofInt significand) (if negative then start - exponent else start + exponent)
      else if significand ≠ 0 ∧ negative = false then none
      else some Binary64.zero
  scaled.map (·.withSign text.negative)

/-- The number denoted, if it is in range. A negative zero is a floating-point number. -/
def toNumber? (text : NumberText) : Option Number :=
  match text.fraction, text.exponent with
  | [], none =>
    let value := Decimal.readNat text.whole
    if text.negative then
      if value = 0 ∨ (twoPow 63 < value ∧ value ≤ significandMax) then
        some (.float ((Binary64.ofInt value).withSign true))
      else if value ≤ twoPow 63 then some (.int (-value))
      else text.toFloat?.map .float
    else if value ≤ significandMax then some (.int value)
    else text.toFloat?.map .float
  | _, _ => text.toFloat?.map .float

theorem length_dropWhile_le {α : Type} (p : α → Bool) (items : List α) :
    (items.dropWhile p).length ≤ items.length :=
  (List.dropWhile_sublist p).length_le

theorem readFraction_length {chars rest digits : List Char}
    (found : readFraction chars = some (digits, rest)) : rest.length ≤ chars.length := by
  unfold readFraction at found
  split at found
  · next tail =>
    split at found
    · simp at found
    · simp at found
      have := length_dropWhile_le Char.isDigit tail
      simp [← found.2]; omega
  · simp at found; simp [found]

theorem readExponentDigits_length {negative : Bool} {chars rest : List Char}
    {exponent : Option (Bool × List Char)}
    (found : readExponentDigits negative chars = some (exponent, rest)) :
    rest.length ≤ chars.length := by
  unfold readExponentDigits at found
  split at found
  · simp at found
  · simp at found
    rw [← found.2]
    exact length_dropWhile_le _ _

theorem readExponent_length {chars rest : List Char} {exponent : Option (Bool × List Char)}
    (found : readExponent chars = some (exponent, rest)) : rest.length ≤ chars.length := by
  unfold readExponent at found
  split at found
  · split at found
    · split at found <;> have := readExponentDigits_length found <;> simp <;> omega
    · simp at found; simp [← found.2]
  · simp at found; simp [found]

theorem readUnsigned_length {negative : Bool} {chars rest : List Char} {text : NumberText}
    (found : readUnsigned negative chars = some (text, rest)) : rest.length < chars.length := by
  unfold readUnsigned at found
  have split_length := congrArg List.length 
    (List.takeWhile_append_dropWhile (p := Char.isDigit) (l := chars))
  rw [List.length_append] at split_length
  split at found
  · simp at found
  · simp at found
  · next digits nonempty _ =>
    split at found
    · simp at found
    · next fraction middle fractionFound =>
      split at found
      · simp at found
      · next exponent last exponentFound =>
        simp at found
        have fractionLength := readFraction_length fractionFound
        have exponentLength := readExponent_length exponentFound
        have : 0 < (chars.takeWhile Char.isDigit).length := by
          rw [List.length_pos_iff]; exact nonempty
        rw [← found.2]; omega

theorem read_length {chars rest : List Char} {text : NumberText}
    (found : read chars = some (text, rest)) : rest.length < chars.length := by
  unfold read at found
  split at found
  · have := readUnsigned_length found; simp; omega
  · exact readUnsigned_length found

end NumberText

end QueryTemplate
