import QueryTemplate.Proofs.Number.Rounding

set_option autoImplicit false

/- The values that numbers of the format stand for. Numbers are ordered by their keys as they are by
their values, and a number is known from the multiple of a power of two that its value is. -/

namespace QueryTemplate

namespace Binary64

/-- The value in units of `2 ^ -1074`, the least positive number of the format. -/
def value (x : Binary64) : Int := if x.negative then -(x.units : Int) else x.units

variable {x y : Binary64}

theorem units_lt_iff : x.units < y.units ↔ x.magnitude < y.magnitude := by
  constructor
  · intro less
    apply Nat.lt_of_not_le
    intro above
    exact Nat.not_lt_of_le (units_mono above) less
  · intro less
    apply Nat.lt_of_not_le
    intro above
    exact Nat.not_lt_of_le (magnitude_le_of_units_le above) less

theorem units_pos_iff : 0 < x.units ↔ 0 < x.magnitude := by
  have least : units zero = 0 := by decide
  rw [← least]
  exact units_lt_iff

theorem key_lt_iff : x.key < y.key ↔ x.value < y.value := by
  have magnitudes : x.units < y.units ↔ x.magnitude < y.magnitude := units_lt_iff
  have reversed : y.units < x.units ↔ y.magnitude < x.magnitude := units_lt_iff
  have first : 0 < x.units ↔ 0 < x.magnitude := units_pos_iff
  have second : 0 < y.units ↔ 0 < y.magnitude := units_pos_iff
  cases left : x.negative <;> cases right : y.negative <;>
    simp only [key, value, left, right, Bool.false_eq_true, ↓reduceIte] <;> omega

/-- The keys of two numbers compare as their values do. -/
theorem compare_key (x y : Binary64) : compare x.key y.key = compare x.value y.value := by
  rcases Int.lt_trichotomy x.value y.value with less | same | greater
  · rw [Int.compare_eq_lt.mpr less, Int.compare_eq_lt.mpr (key_lt_iff.mpr less)]
  · have notLess : ¬ x.key < y.key := fun less => Int.lt_irrefl _ (same ▸ key_lt_iff.mp less)
    have notGreater : ¬ y.key < x.key := fun less => Int.lt_irrefl _ (same ▸ key_lt_iff.mp less)
    rw [Int.compare_eq_eq.mpr same, Int.compare_eq_eq.mpr (by omega)]
  · rw [Int.compare_eq_gt.mpr greater, Int.compare_eq_gt.mpr (key_lt_iff.mpr greater)]

end Binary64

end QueryTemplate
