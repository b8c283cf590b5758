import QueryTemplate.Number.Shortest
import QueryTemplate.Proofs.Number.Rounding

set_option autoImplicit false

/- The shortest decimal of a number lies in the interval of the reals that round to the number, and
is zero only for zero. -/

namespace QueryTemplate

namespace Decimal

theorem significand_pos {x : Binary64} (nonzero : x.isZero = false) : 0 < x.parts.1 := by
  have present : x.magnitude ≠ 0 := by simpa [Binary64.isZero] using nonzero
  have base := twoPow_pos 52
  unfold Binary64.parts
  dsimp only
  split
  next least =>
    have whole := Nat.div_add_mod x.magnitude (twoPow 52)
    rw [least, Nat.mul_zero, Nat.zero_add] at whole
    omega
  next => omega

theorem quarter_pos (scale : Nat) : 0 < twoPow scale * tenPow shift :=
  Nat.mul_pos (twoPow_pos scale) (tenPow_pos shift)

theorem low_pos {x : Binary64} (nonzero : x.isZero = false) : 0 < (interval x).low := by
  have present := significand_pos nonzero
  change 0 < (4 * x.parts.1 - if x.parts.1 = twoPow 52 ∧ 0 < x.parts.2 then 1 else 2) * _
  refine Nat.mul_pos ?_ (quarter_pos _)
  split <;> omega

theorem low_le_high (x : Binary64) : (interval x).low ≤ (interval x).high :=
  Nat.mul_le_mul_right _ (Nat.le_trans (Nat.sub_le _ _) (Nat.le_add_right _ 2))

theorem value_le_high (x : Binary64) : (interval x).value ≤ (interval x).high :=
  Nat.mul_le_mul_right _ (Nat.le_add_right _ 2)

theorem unitAt_pos (place : Nat) : 0 < unitAt place :=
  Nat.mul_pos (tenPow_pos place) (twoPow_pos 1076)

theorem unitAt_zero_le : unitAt 0 ≤ 4 * tenPow shift := by decide +kernel

theorem unitAt_zero_le_value {x : Binary64} (nonzero : x.isZero = false) :
    unitAt 0 ≤ (interval x).value := by
  have present := significand_pos nonzero
  have scaled := twoPow_pos x.parts.2
  calc unitAt 0 ≤ 4 * tenPow shift := unitAt_zero_le
    _ ≤ 4 * x.parts.1 * tenPow shift := Nat.mul_le_mul_right _ (by omega)
    _ ≤ 4 * x.parts.1 * (twoPow x.parts.2 * tenPow shift) :=
        Nat.mul_le_mul_left _ (Nat.le_mul_of_pos_left _ scaled)

namespace Interval

variable {tie : Tie} {i : Interval} {unit digits : Nat}

theorem bounds_of_contains (ordered : i.low ≤ i.high) {point : Nat}
    (inside : i.contains point = true) : i.low ≤ point ∧ point ≤ i.high := by
  simp only [contains, Bool.or_eq_true, Bool.and_eq_true, decide_eq_true_eq, beq_iff_eq] at inside
  omega

theorem contains_of_nearest (found : i.nearest tie unit = some digits) :
    i.contains (digits * unit) = true := by
  unfold nearest at found
  dsimp only at found
  split at found
  next below above =>
    cases found
    rcases roundDiv_eq_or tie i.value unit with same | next
    · rw [same]
      exact below
    · rw [next]
      exact above
  next below _ =>
    cases found
    exact below
  next _ above =>
    cases found
    exact above
  next => cases found

end Interval

theorem search_bounds {i : Interval} {unit : Nat → Nat} (low : 0 < i.low) (ordered : i.low ≤ i.high)
    (middle : i.value ≤ i.high) (positive : 0 < unit 0) (least : unit 0 ≤ i.value) (tie : Tie)
    (place : Nat) :
    0 < (i.search tie unit place).1 ∧
      (i.search tie unit place).1 * unit (i.search tie unit place).2 ≤ i.high := by
  induction place with
  | zero =>
      exact ⟨Nat.div_pos least positive, Nat.le_trans (Nat.div_mul_le_self _ _) middle⟩
  | succ place ih =>
      rw [Interval.search]
      cases found : i.nearest tie (unit (place + 1)) with
      | none => exact ih
      | some digits =>
          have inside := Interval.bounds_of_contains ordered (Interval.contains_of_nearest found)
          exact ⟨Nat.pos_of_mul_pos_right (Nat.lt_of_lt_of_le low inside.1), inside.2⟩

/-- A decimal that is not zero and does not exceed an interval. -/
def Within (i : Interval) (d : Decimal) : Prop :=
  ∃ place : Nat, d.exponent = (place : Int) - shift ∧ 0 < d.digits ∧
    d.digits * unitAt place ≤ i.high

theorem shortest_of_nonzero (tie : Tie) {x : Binary64} (nonzero : x.isZero = false) :
    ∃ place, shortest tie x =
      ⟨((interval x).search tie unitAt place).1, ((interval x).search tie unitAt place).2 - shift⟩ := by
  refine ⟨digitCount ((interval x).value / unitAt 0), ?_⟩
  rw [shortest, if_neg (by rw [nonzero]; decide)]

theorem shortest_within (tie : Tie) {x : Binary64} (nonzero : x.isZero = false) :
    Within (interval x) (shortest tie x) := by
  obtain ⟨place, same⟩ := shortest_of_nonzero tie nonzero
  have bounds := search_bounds (low_pos nonzero) (low_le_high x) (value_le_high x) (unitAt_pos 0)
    (unitAt_zero_le_value nonzero) tie place
  rw [same]
  generalize (interval x).search tie unitAt place = found at bounds
  exact ⟨found.2, rfl, bounds⟩

/-- The shortest decimal of zero has exponent zero. -/
theorem shortest_zero_or_pos (tie : Tie) (x : Binary64) :
    shortest tie x = ⟨0, 0⟩ ∨ 0 < (shortest tie x).digits := by
  cases zero : x.isZero with
  | true =>
      left
      simp only [shortest, zero, ↓reduceIte]
  | false =>
      obtain ⟨_, _, positive, -⟩ := shortest_within tie zero
      exact Or.inr positive

end Decimal

end QueryTemplate
