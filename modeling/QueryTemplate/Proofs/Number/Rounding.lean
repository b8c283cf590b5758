import QueryTemplate.Number.Binary64

set_option autoImplicit false

/- Rounding keeps the order of what is rounded and leaves the numbers of the format as they are. -/

namespace QueryTemplate

section Quotients

variable (tie : Tie)

theorem Tie.le_settle (quotient : Nat) : quotient ≤ tie.settle quotient := by
  cases tie <;> exact Nat.le_add_right _ _

theorem Tie.settle_le (quotient : Nat) : tie.settle quotient ≤ quotient + 1 := by
  cases tie with
  | up => exact Nat.le_refl _
  | toEven =>
      simp only [settle]
      omega

variable {numerator other denominator : Nat}

/-- A rounded quotient is one of the two integers around the quotient. -/
theorem roundDiv_eq_or (numerator denominator : Nat) :
    roundDiv tie numerator denominator = numerator / denominator ∨
      roundDiv tie numerator denominator = numerator / denominator + 1 := by
  unfold roundDiv
  dsimp only
  split
  · exact Or.inl rfl
  · split
    · exact Or.inr rfl
    · have least := tie.le_settle (numerator / denominator)
      have most := tie.settle_le (numerator / denominator)
      omega

theorem roundDiv_mono (below : numerator ≤ other) :
    roundDiv tie numerator denominator ≤ roundDiv tie other denominator := by
  have quotients : numerator / denominator ≤ other / denominator := Nat.div_le_div_right below
  rcases Nat.lt_or_eq_of_le quotients with less | same
  · have first := roundDiv_eq_or tie numerator denominator
    have second := roundDiv_eq_or tie other denominator
    omega
  · have remainders : numerator % denominator ≤ other % denominator := by
      have first := Nat.div_add_mod numerator denominator
      have second := Nat.div_add_mod other denominator
      rw [same] at first
      omega
    have least := tie.le_settle (other / denominator)
    have most := tie.settle_le (other / denominator)
    unfold roundDiv
    dsimp only
    rw [same]
    split
    · split
      · exact Nat.le_refl _
      · split <;> omega
    · split
      · exact Nat.le_of_eq (by rw [if_neg (by omega), if_pos (by omega)])
      · rw [if_neg (by omega)]
        split <;> omega

theorem roundDiv_mul (integer : Nat) (positive : 0 < denominator) :
    roundDiv tie (integer * denominator) denominator = integer := by
  unfold roundDiv
  dsimp only
  rw [Nat.mul_mod_left, Nat.mul_zero, if_pos positive, Nat.mul_div_cancel _ positive]

theorem roundDiv_le {bound : Nat} (positive : 0 < denominator)
    (below : numerator ≤ bound * denominator) : roundDiv tie numerator denominator ≤ bound := by
  have ordered : roundDiv tie numerator denominator ≤ roundDiv tie (bound * denominator) denominator :=
    roundDiv_mono tie below
  rwa [roundDiv_mul tie bound positive] at ordered

theorem le_roundDiv {bound : Nat} (positive : 0 < denominator)
    (above : bound * denominator ≤ numerator) : bound ≤ roundDiv tie numerator denominator := by
  have ordered : roundDiv tie (bound * denominator) denominator ≤ roundDiv tie numerator denominator :=
    roundDiv_mono tie above
  rwa [roundDiv_mul tie bound positive] at ordered

end Quotients

namespace Binary64

/-- The scale at which a quotient is rounded, in units of the least positive number. -/
def scaleOf (scaled denominator : Nat) : Nat := Nat.log2 (scaled / denominator) - 52

/-- The magnitude that a quotient is rounded to, were there no largest one. -/
def magnitudeOf (scaled denominator : Nat) : Nat :=
  scaleOf scaled denominator * twoPow 52 +
    roundDiv .toEven scaled (denominator * twoPow (scaleOf scaled denominator))

theorem magnitude_ofRatio (negative : Bool) (numerator denominator : Nat) :
    (ofRatio negative numerator denominator).magnitude =
      min (magnitudeOf (numerator * twoPow 1074) denominator) infinity := rfl

theorem twoPow_add (first second : Nat) : twoPow (first + second) = twoPow first * twoPow second :=
  Nat.pow_add 2 first second

theorem twoPow_le {first second : Nat} (ordered : first ≤ second) : twoPow first ≤ twoPow second :=
  Nat.pow_le_pow_right (by decide) ordered

variable {scaled other denominator : Nat}

theorem lt_at_scaleOf (positive : 0 < denominator) :
    scaled < twoPow 53 * (denominator * twoPow (scaleOf scaled denominator)) := by
  have quotient : scaled / denominator < twoPow (53 + scaleOf scaled denominator) := by
    refine Nat.lt_of_lt_of_le Nat.lt_log2_self (twoPow_le ?_)
    unfold scaleOf
    omega
  rw [Nat.div_lt_iff_lt_mul positive, twoPow_add] at quotient
  calc scaled < twoPow 53 * twoPow (scaleOf scaled denominator) * denominator := quotient
    _ = twoPow 53 * (denominator * twoPow (scaleOf scaled denominator)) := by
        rw [Nat.mul_assoc, Nat.mul_comm denominator]

theorem le_at_scaleOf (positive : 0 < denominator) (scaleUp : 0 < scaleOf scaled denominator) :
    twoPow 52 * (denominator * twoPow (scaleOf scaled denominator)) ≤ scaled := by
  have log : Nat.log2 (scaled / denominator) = 52 + scaleOf scaled denominator := by
    unfold scaleOf at scaleUp ⊢
    omega
  have present : scaled / denominator ≠ 0 := by
    intro zero
    rw [zero, show Nat.log2 0 = 0 from rfl] at log
    omega
  have quotient : twoPow (52 + scaleOf scaled denominator) ≤ scaled / denominator := by
    rw [← log]
    exact Nat.log2_self_le present
  rw [Nat.le_div_iff_mul_le positive, twoPow_add] at quotient
  calc twoPow 52 * (denominator * twoPow (scaleOf scaled denominator))
      = twoPow 52 * twoPow (scaleOf scaled denominator) * denominator := by
        rw [Nat.mul_assoc, Nat.mul_comm denominator]
    _ ≤ scaled := quotient

theorem scaleOf_mono (ordered : scaled ≤ other) :
    scaleOf scaled denominator ≤ scaleOf other denominator := by
  have quotients : scaled / denominator ≤ other / denominator := Nat.div_le_div_right ordered
  have logs : Nat.log2 (scaled / denominator) ≤ Nat.log2 (other / denominator) := by
    by_cases zero : scaled / denominator = 0
    · rw [zero]
      exact Nat.zero_le _
    · have present : other / denominator ≠ 0 :=
        fun absent => zero (Nat.le_zero.mp (absent ▸ quotients))
      exact (Nat.le_log2 present).mpr (Nat.le_trans (Nat.log2_self_le zero) quotients)
  unfold scaleOf
  omega

theorem magnitudeOf_mono (positive : 0 < denominator) (ordered : scaled ≤ other) :
    magnitudeOf scaled denominator ≤ magnitudeOf other denominator := by
  have unit (scale : Nat) : 0 < denominator * twoPow scale := Nat.mul_pos positive (twoPow_pos scale)
  unfold magnitudeOf
  have scales : scaleOf scaled denominator ≤ scaleOf other denominator := scaleOf_mono ordered
  rcases Nat.lt_or_eq_of_le scales with less | same
  · -- the smaller one is rounded to no more than the least magnitude of the next scale
    have first : roundDiv .toEven scaled (denominator * twoPow (scaleOf scaled denominator)) ≤
        twoPow 53 := roundDiv_le _ (unit _) (Nat.le_of_lt (lt_at_scaleOf positive))
    have second : twoPow 52 ≤
        roundDiv .toEven other (denominator * twoPow (scaleOf other denominator)) :=
      le_roundDiv _ (unit _) (le_at_scaleOf positive (by omega))
    have double : twoPow 53 = 2 * twoPow 52 := twoPow_succ 52
    have next := Nat.mul_le_mul_right (twoPow 52) less
    rw [Nat.succ_mul] at next
    omega
  · rw [same]
    exact Nat.add_le_add_left (roundDiv_mono _ ordered) _

/-- What the significand and the scale of a number say about its magnitude. -/
structure Placed (x : Binary64) : Prop where
  significand : x.parts.1 < twoPow 53
  normal : twoPow 52 ≤ x.parts.1 ∨ x.parts.2 = 0
  magnitude : x.magnitude = x.parts.2 * twoPow 52 + x.parts.1

theorem placed (x : Binary64) : x.Placed := by
  have double : twoPow 53 = 2 * twoPow 52 := twoPow_succ 52
  have whole := Nat.div_add_mod x.magnitude (twoPow 52)
  have fraction := Nat.mod_lt x.magnitude (twoPow_pos 52)
  rw [Nat.mul_comm] at whole
  by_cases least : x.magnitude / twoPow 52 = 0
  · have same : x.parts = (x.magnitude % twoPow 52, 0) := by simp only [parts, least, ↓reduceIte]
    rw [least] at whole
    exact ⟨by rw [same]; omega, by rw [same]; exact Or.inr rfl, by rw [same]; exact whole.symm⟩
  · have same : x.parts =
        (twoPow 52 + x.magnitude % twoPow 52, x.magnitude / twoPow 52 - 1) := by
      simp only [parts, least, ↓reduceIte]
    obtain ⟨scale, next⟩ := Nat.exists_eq_succ_of_ne_zero least
    rw [next, Nat.succ_mul] at whole
    refine ⟨by rw [same]; omega, by rw [same]; exact Or.inl (Nat.le_add_right _ _), ?_⟩
    rw [same, next, Nat.succ_sub_one]
    dsimp only
    omega

variable (x : Binary64)

theorem scaleOf_units (positive : 0 < denominator) :
    scaleOf (denominator * x.units) denominator = x.parts.2 := by
  obtain ⟨significand, normal, -⟩ := x.placed
  have quotient : denominator * x.units / denominator = x.units := Nat.mul_div_cancel_left _ positive
  have upper : x.units < twoPow (53 + x.parts.2) := by
    rw [twoPow_add]
    exact Nat.mul_lt_mul_of_pos_right significand (twoPow_pos _)
  rw [scaleOf, quotient]
  by_cases absent : x.units = 0
  · rw [absent]
    rcases normal with large | least
    · have filled : 0 < x.units :=
        Nat.mul_pos (Nat.lt_of_lt_of_le (twoPow_pos 52) large) (twoPow_pos x.parts.2)
      omega
    · rw [least]
      rfl
  · have log : Nat.log2 x.units < 53 + x.parts.2 := (Nat.log2_lt absent).mpr upper
    rcases normal with large | least
    · have lower : twoPow (52 + x.parts.2) ≤ x.units := by
        rw [twoPow_add]
        exact Nat.mul_le_mul_right _ large
      have log' : 52 + x.parts.2 ≤ Nat.log2 x.units := (Nat.le_log2 absent).mpr lower
      omega
    · omega

/-- A number of the format is rounded to itself. -/
theorem magnitudeOf_units (positive : 0 < denominator) :
    magnitudeOf (denominator * x.units) denominator = x.magnitude := by
  have unit : 0 < denominator * twoPow x.parts.2 := Nat.mul_pos positive (twoPow_pos _)
  have whole : denominator * x.units = x.parts.1 * (denominator * twoPow x.parts.2) :=
    Nat.mul_left_comm _ _ _
  rw [magnitudeOf, scaleOf_units x positive, whole, roundDiv_mul _ _ unit, x.placed.magnitude]

variable {x}

theorem magnitude_le_of_units_le {y : Binary64} (ordered : x.units ≤ y.units) :
    x.magnitude ≤ y.magnitude := by
  have rounded : magnitudeOf (1 * x.units) 1 ≤ magnitudeOf (1 * y.units) 1 :=
    magnitudeOf_mono Nat.one_pos (Nat.mul_le_mul_left 1 ordered)
  rwa [magnitudeOf_units x Nat.one_pos, magnitudeOf_units y Nat.one_pos] at rounded

theorem units_mono {y : Binary64} (ordered : x.magnitude ≤ y.magnitude) : x.units ≤ y.units := by
  apply Nat.le_of_not_lt
  intro less
  have back : y.magnitude ≤ x.magnitude := magnitude_le_of_units_le (Nat.le_of_lt less)
  have same : x.parts = y.parts := by
    unfold parts
    rw [Nat.le_antisymm ordered back]
  rw [units, units, same] at less
  exact Nat.lt_irrefl _ less

variable {numerator : Nat} (negative : Bool)

theorem ofRatio_mono {second : Nat} (positive : 0 < denominator) (ordered : numerator ≤ second)
    (sign : Bool) :
    (ofRatio negative numerator denominator).magnitude ≤
      (ofRatio sign second denominator).magnitude := by
  have scaled := magnitudeOf_mono positive (Nat.mul_le_mul_right (twoPow 1074) ordered)
  rw [magnitude_ofRatio, magnitude_ofRatio]
  omega

/-- A quotient that does not exceed a number of the format is not rounded beyond it. -/
theorem ofRatio_le (positive : 0 < denominator)
    (below : numerator * twoPow 1074 ≤ denominator * x.units) :
    (ofRatio negative numerator denominator).magnitude ≤ x.magnitude := by
  have rounded := magnitudeOf_mono positive below
  rw [magnitudeOf_units x positive] at rounded
  rw [magnitude_ofRatio]
  omega

theorem isFinite_of_le {y : Binary64} (finite : y.isFinite) (ordered : x.magnitude ≤ y.magnitude) :
    x.isFinite := by
  simp only [isFinite, decide_eq_true_eq] at finite ⊢
  exact Nat.lt_of_le_of_lt ordered finite

end Binary64

end QueryTemplate
