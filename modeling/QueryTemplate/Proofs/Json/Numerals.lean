import QueryTemplate.Json.NumberText
import QueryTemplate.Json.Printer
import QueryTemplate.Number.Digits
import QueryTemplate.Proofs.Number.Shortest

set_option autoImplicit false

/- The parts of a number in JSON notation, and that a reader finds the parts that were written. -/

namespace QueryTemplate

namespace NumberText

open Decimal (AllDigits Stops)

def fractionText (text : NumberText) : List Char :=
  match text.fraction with
  | [] => []
  | digits => '.' :: digits

def exponentText (text : NumberText) : List Char :=
  match text.exponent with
  | none => []
  | some (negative, digits) => 'e' :: (if negative then '-' else '+') :: digits

def spell (text : NumberText) : List Char :=
  (if text.negative then ['-'] else []) ++ (text.whole ++ (text.fractionText ++ text.exponentText))

/-- What the notation asks of the parts. -/
structure Formed (text : NumberText) : Prop where
  whole : AllDigits text.whole
  present : ∃ c rest, text.whole = c :: rest ∧ (c = '0' → rest = [])
  fraction : AllDigits text.fraction
  exponent : ∀ negative digits, text.exponent = some (negative, digits) →
    AllDigits digits ∧ digits ≠ []

/-- A number cannot go on. -/
def Closed (rest : List Char) : Prop :=
  ∀ c, rest.head? = some c → c.isDigit = false ∧ c ≠ '.' ∧ c ≠ 'e' ∧ c ≠ 'E'

theorem Closed.stops {rest : List Char} (closed : Closed rest) : Stops rest :=
  fun c first => (closed c first).1

theorem closed_nil : Closed [] := fun _ first => nomatch first

variable {text : NumberText} {rest : List Char}

theorem readExponentDigits_digits {digits : List Char} (negative : Bool) (all : AllDigits digits)
    (present : digits ≠ []) (stops : Stops rest) :
    readExponentDigits negative (digits ++ rest) = some (some (negative, digits), rest) := by
  unfold readExponentDigits
  rw [Decimal.takeWhile_digits all stops, Decimal.dropWhile_digits all stops]
  cases digits with
  | nil => contradiction
  | cons c digits => rfl

theorem readExponent_spelled (formed : text.Formed) (closed : Closed rest) :
    readExponent (text.exponentText ++ rest) = some (text.exponent, rest) := by
  unfold exponentText
  cases spelled : text.exponent with
  | none =>
      cases rest with
      | nil => rfl
      | cons c rest =>
          obtain ⟨_, _, small, large⟩ := closed c rfl
          simp only [List.nil_append, readExponent, small, large, or_self, ↓reduceIte]
  | some exponent =>
      obtain ⟨negative, digits⟩ := exponent
      obtain ⟨all, present⟩ := formed.exponent negative digits spelled
      have read := readExponentDigits_digits negative all present closed.stops
      cases negative <;> exact read

theorem stops_exponentText (closed : Closed rest) : Stops (text.exponentText ++ rest) := by
  unfold exponentText
  split
  · exact closed.stops
  · intro c first
    cases first
    rfl

theorem readFraction_spelled (formed : text.Formed) (closed : Closed rest) :
    readFraction (text.fractionText ++ (text.exponentText ++ rest)) =
      some (text.fraction, text.exponentText ++ rest) := by
  have stops : Stops (text.exponentText ++ rest) := stops_exponentText closed
  unfold fractionText
  split
  next absent =>
    rw [absent, List.nil_append]
    unfold readFraction
    split
    next tail shape =>
      unfold exponentText at shape
      split at shape
      · exact absurd rfl (closed '.' (by rw [show rest = '.' :: tail from shape]; rfl)).2.1
      · cases shape
    next => rfl
  next present =>
    simp only [List.cons_append, readFraction]
    rw [Decimal.takeWhile_digits formed.fraction stops, Decimal.dropWhile_digits formed.fraction stops]
    cases spelled : text.fraction with
    | nil => exact absurd spelled present
    | cons c digits => rfl

theorem readUnsigned_spelled (formed : text.Formed) (closed : Closed rest) :
    readUnsigned text.negative
        (text.whole ++ (text.fractionText ++ (text.exponentText ++ rest))) =
      some (text, rest) := by
  have stops : Stops (text.fractionText ++ (text.exponentText ++ rest)) := by
    unfold fractionText
    split
    · exact stops_exponentText closed
    · intro c first
      cases first
      rfl
  obtain ⟨c, digits, spelled, leading⟩ := formed.present
  unfold readUnsigned
  rw [Decimal.takeWhile_digits formed.whole stops, Decimal.dropWhile_digits formed.whole stops,
    spelled]
  split
  next empty => cases empty
  next shape =>
    obtain ⟨rfl, others⟩ := List.cons.inj shape
    rw [leading rfl] at others
    cases others
  next =>
    simp only [readFraction_spelled formed closed, readExponent_spelled formed closed]
    rw [← spelled]

theorem read_spelled (formed : text.Formed) (closed : Closed rest) :
    read (text.spell ++ rest) = some (text, rest) := by
  have unsigned := readUnsigned_spelled formed closed
  unfold spell
  cases sign : text.negative with
  | true =>
      simp only [↓reduceIte, List.append_assoc, List.cons_append, List.nil_append, read]
      rwa [sign] at unsigned
  | false =>
      simp only [Bool.false_eq_true, ↓reduceIte, List.append_assoc, List.nil_append]
      obtain ⟨c, digits, spelled, -⟩ := formed.present
      unfold read
      split
      next shape =>
        rw [spelled] at shape
        have digit := formed.whole c (by rw [spelled]; exact List.mem_cons_self)
        rw [(List.cons.inj shape).1] at digit
        cases digit
      next => rwa [sign] at unsigned

end NumberText

namespace Decimal

/-- The digits before the point of a decimal that has a fraction. -/
def wholeDigits (d : Decimal) : List Char :=
  let digits := natText d.digits
  let places := (-d.exponent).toNat
  if places < digits.length then digits.take (digits.length - places) else ['0']

def fractionDigits (d : Decimal) : List Char :=
  let digits := natText d.digits
  let places := (-d.exponent).toNat
  if places < digits.length then digits.drop (digits.length - places)
  else zeros (places - digits.length) ++ digits

/-- The parts of a decimal as it is written, the notation being chosen by its leading digit. -/
def numeral (negative : Bool) (d : Decimal) : NumberText :=
  if -5 ≤ d.leading ∧ d.leading < 16 then
    if d.exponent < 0 then ⟨negative, d.wholeDigits, d.fractionDigits, none⟩
    else ⟨negative, natText d.digits ++ zeros d.exponent.toNat, ['0'], none⟩
  else
    ⟨negative, (natText d.digits).take 1, (natText d.digits).drop 1,
      some (d.leading < 0, natText d.leading.natAbs)⟩

theorem plain_of_neg {d : Decimal} (fractional : d.exponent < 0) :
    d.plain = d.wholeDigits ++ '.' :: d.fractionDigits := by
  simp only [plain, wholeDigits, fractionDigits, Int.not_le.mpr fractional, ↓reduceIte]
  split <;> rfl

theorem fractionDigits_ne_nil {d : Decimal} (fractional : d.exponent < 0) :
    d.fractionDigits ≠ [] := by
  have present : 0 < (natText d.digits).length := Nat.length_toDigits_pos
  simp only [fractionDigits]
  split
  next inside =>
    intro empty
    rw [List.drop_eq_nil_iff] at empty
    omega
  next => exact fun empty => natText_ne_nil _ (List.append_eq_nil_iff.mp empty).2

theorem scientific_eq (d : Decimal) :
    d.scientific = (natText d.digits).take 1 ++
      (((match (natText d.digits).drop 1 with
        | [] => []
        | digits => '.' :: digits) : List Char) ++
        'e' :: (if d.leading < 0 then '-' else '+') :: natText d.leading.natAbs) := by
  simp only [scientific]
  match spelled : natText d.digits with
  | [] => exact absurd spelled (natText_ne_nil _)
  | [_] => rfl
  | _ :: _ :: _ => rfl

theorem allDigits_take {digits : List Char} (all : AllDigits digits) (count : Nat) :
    AllDigits (digits.take count) := fun c within => all c (List.mem_of_mem_take within)

theorem allDigits_drop {digits : List Char} (all : AllDigits digits) (count : Nat) :
    AllDigits (digits.drop count) := fun c within => all c (List.mem_of_mem_drop within)

theorem allDigits_fraction (d : Decimal) : AllDigits d.fractionDigits := by
  simp only [fractionDigits]
  split
  · exact allDigits_drop (allDigits_natText _) _
  · exact (allDigits_zeros _).append (allDigits_natText _)

theorem allDigits_whole (d : Decimal) : AllDigits d.wholeDigits := by
  simp only [wholeDigits]
  split
  · exact allDigits_take (allDigits_natText _) _
  · exact allDigits_zeros 1

/-- Digits of a number that is not zero, with any others after them, have no leading zero. -/
theorem natText_present {n : Nat} (positive : 0 < n) (others : List Char) :
    ∃ c rest, natText n ++ others = c :: rest ∧ (c = '0' → rest = []) := by
  obtain ⟨c, rest, spelled, other⟩ := natText_head positive
  exact ⟨c, rest ++ others, by rw [spelled]; rfl, fun zero => absurd zero other⟩

theorem take_present {digits : List Char} {count : Nat}
    (present : ∃ c rest, digits = c :: rest ∧ (c = '0' → rest = [])) (positive : 0 < count) :
    ∃ c rest, digits.take count = c :: rest ∧ (c = '0' → rest = []) := by
  obtain ⟨c, rest, rfl, leading⟩ := present
  obtain ⟨count, rfl⟩ := Nat.exists_eq_succ_of_ne_zero (Nat.ne_of_gt positive)
  refine ⟨c, rest.take count, rfl, fun zero => ?_⟩
  rw [leading zero, List.take_nil]

theorem natText_leading (n : Nat) :
    ∃ c rest, natText n = c :: rest ∧ (c = '0' → rest = []) := by
  rcases Nat.eq_zero_or_pos n with rfl | positive
  · exact ⟨'0', [], rfl, fun _ => rfl⟩
  · have present := natText_present positive []
    rwa [List.append_nil] at present

theorem whole_present (d : Decimal) :
    ∃ c rest, d.wholeDigits = c :: rest ∧ (c = '0' → rest = []) := by
  simp only [wholeDigits]
  split
  · exact take_present (natText_leading _) (by omega)
  · exact ⟨'0', [], rfl, fun _ => rfl⟩

/-- A decimal whose digits are not zero, or that is zero with no more than one digit, is written as
a number. -/
theorem formed_numeral (negative : Bool) {d : Decimal}
    (shown : d = ⟨0, 0⟩ ∨ 0 < d.digits) : (d.numeral negative).Formed := by
  unfold numeral
  split
  · split
    · exact ⟨allDigits_whole d, whole_present d, allDigits_fraction d, fun _ _ none => nomatch none⟩
    · refine ⟨(allDigits_natText _).append (allDigits_zeros _), ?_, allDigits_zeros 1,
        fun _ _ none => nomatch none⟩
      rcases shown with rfl | positive
      · exact ⟨'0', [], rfl, fun _ => rfl⟩
      · exact natText_present positive _
  · refine ⟨allDigits_take (allDigits_natText _) 1, take_present (natText_leading _) Nat.one_pos,
      allDigits_drop (allDigits_natText _) 1, fun _ _ shape => ?_⟩
    cases shape
    exact ⟨allDigits_natText _, natText_ne_nil _⟩

/-- What is written for a decimal after the sign. -/
theorem spell_numeral (negative : Bool) (d : Decimal) :
    (d.numeral negative).spell = (if negative then ['-'] else []) ++
      if -5 ≤ d.leading ∧ d.leading < 16 then
        if d.exponent < 0 then d.plain else d.plain ++ ".0".toList
      else d.scientific := by
  unfold numeral
  split
  · split
    next fractional =>
      rw [plain_of_neg fractional]
      unfold NumberText.spell NumberText.fractionText NumberText.exponentText
      cases shape : d.fractionDigits with
      | nil => exact absurd shape (fractionDigits_ne_nil fractional)
      | cons c digits => simp only [List.append_nil]
    next whole =>
      have positive : 0 ≤ d.exponent := by omega
      simp only [plain, positive, ↓reduceIte]
      rfl
  · rw [scientific_eq]
    simp only [NumberText.spell, NumberText.fractionText, NumberText.exponentText, decide_eq_true_eq]

end Decimal

/-- The parts of a number as it is written. -/
def Number.numeral : Number → NumberText
  | .int value => ⟨decide (value < 0), Decimal.natText value.natAbs, [], none⟩
  | .float value => (Decimal.shortest .toEven value).numeral value.negative

theorem Number.formed_numeral (number : Number) : number.numeral.Formed := by
  cases number with
  | int value =>
      refine ⟨Decimal.allDigits_natText _, Decimal.natText_leading _, fun _ within => ?_,
        fun _ _ none => nomatch none⟩
      cases within
  | float value => exact Decimal.formed_numeral _ (Decimal.shortest_zero_or_pos .toEven value)

theorem Number.spell_numeral (number : Number) : number.numeral.spell = number.print := by
  cases number with
  | int value =>
      simp only [Number.numeral, NumberText.spell, NumberText.fractionText,
        NumberText.exponentText, List.append_nil, Number.print, intText, decide_eq_true_eq]
      split <;> rfl
  | float value =>
      simp only [Number.numeral, Decimal.spell_numeral, Number.print, Binary64.jsonText,
        Binary64.signText]
      generalize Decimal.shortest .toEven value = d
      by_cases plain : -5 ≤ d.leading ∧ d.leading < 16
      · by_cases fractional : d.exponent < 0
        · rw [if_pos plain, if_pos plain, if_pos fractional, if_pos fractional]
        · rw [if_pos plain, if_pos plain, if_neg fractional, if_neg fractional, List.append_assoc]
      · rw [if_neg plain, if_neg plain]

/-- The number that the text of a number is read as. -/
def Number.reread? (number : Number) : Option Number := number.numeral.toNumber?

end QueryTemplate
