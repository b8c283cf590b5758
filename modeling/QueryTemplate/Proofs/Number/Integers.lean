import QueryTemplate.Proofs.Number.Values

set_option autoImplicit false

/- Integers as numbers of the format. An integer becomes the nearest one that 53 bits can hold, of
two equally near ones the one that needs one bit less; this changes no integer up to `2 ^ 53`, and
none of 64 bits by more than 1024. -/

namespace QueryTemplate

section Quotients

variable {numerator denominator : Nat}

/-- Rounding changes less than half a unit, or half a unit when the rounded quotient is even. -/
theorem sub_roundDiv_toEven (numerator : Nat) (positive : 0 < denominator) :
    2 * ((numerator : Int) - (roundDiv .toEven numerator denominator * denominator : Nat)).natAbs <
        denominator ∨
      2 * ((numerator : Int) - (roundDiv .toEven numerator denominator * denominator : Nat)).natAbs =
          denominator ∧
        roundDiv .toEven numerator denominator % 2 = 0 := by
  have whole := Nat.div_add_mod numerator denominator
  have rest := Nat.mod_lt numerator positive
  have next : (numerator / denominator + 1) * denominator =
      numerator / denominator * denominator + denominator := Nat.succ_mul _ _
  rw [Nat.mul_comm] at whole
  unfold roundDiv
  dsimp only
  split
  next => exact Or.inl (by omega)
  next =>
    split
    next =>
      rw [next]
      exact Or.inl (by omega)
    next =>
      refine Or.inr ⟨?_, by rw [Tie.settle]; omega⟩
      rcases Nat.mod_two_eq_zero_or_one (numerator / denominator) with even | odd
      · rw [Tie.settle, even, Nat.add_zero]
        omega
      · rw [Tie.settle, odd, next]
        omega

/-- No multiple is nearer than the rounded one, and if another one is as near, the rounded one has
an even factor. -/
theorem roundDiv_nearest (numerator : Nat) (positive : 0 < denominator) (factor : Nat) :
    ((numerator : Int) - (roundDiv .toEven numerator denominator * denominator : Nat)).natAbs ≤
        ((numerator : Int) - (factor * denominator : Nat)).natAbs ∧
      (((numerator : Int) - (factor * denominator : Nat)).natAbs =
          ((numerator : Int) - (roundDiv .toEven numerator denominator * denominator : Nat)).natAbs →
        factor ≠ roundDiv .toEven numerator denominator →
        roundDiv .toEven numerator denominator % 2 = 0) := by
  have half := sub_roundDiv_toEven numerator positive
  generalize roundDiv .toEven numerator denominator = nearest at half ⊢
  -- another factor is at least a whole unit away from the nearest one
  have apart : factor = nearest ∨ factor * denominator + denominator ≤ nearest * denominator ∨
      nearest * denominator + denominator ≤ factor * denominator := by
    rcases Nat.lt_trichotomy factor nearest with less | same | greater
    · exact Or.inr (Or.inl (Nat.succ_mul factor denominator ▸ Nat.mul_le_mul_right _ less))
    · exact Or.inl same
    · exact Or.inr (Or.inr (Nat.succ_mul nearest denominator ▸ Nat.mul_le_mul_right _ greater))
  refine ⟨?_, fun tie other => ?_⟩
  · rcases apart with rfl | below | above <;> omega
  · rcases apart with same | below | above
    · exact absurd same other
    · omega
    · omega

theorem roundDiv_mul_mul {scale : Nat} (tie : Tie) (positive : 0 < scale) :
    roundDiv tie (numerator * scale) (denominator * scale) = roundDiv tie numerator denominator := by
  have less : 2 * (numerator % denominator * scale) < denominator * scale ↔
      2 * (numerator % denominator) < denominator := by
    rw [← Nat.mul_assoc]
    exact Nat.mul_lt_mul_right positive
  have greater : denominator * scale < 2 * (numerator % denominator * scale) ↔
      denominator < 2 * (numerator % denominator) := by
    rw [← Nat.mul_assoc]
    exact Nat.mul_lt_mul_right positive
  unfold roundDiv
  dsimp only
  rw [Nat.mul_div_mul_right _ _ positive, Nat.mul_mod_mul_right]
  simp only [less, greater]

end Quotients

namespace Binary64

/-- A number that this many bits hold, zeros after them aside. -/
def HasBits (bits n : Nat) : Prop :=
  ∃ significand scale, significand < twoPow bits ∧ n = significand * twoPow scale

theorem HasBits.of_le {bits n : Nat} (fits : n ≤ twoPow bits) (some : 0 < bits) :
    HasBits bits n := by
  rcases Nat.lt_or_eq_of_le fits with less | rfl
  · exact ⟨n, 0, less, (Nat.mul_one n).symm⟩
  · exact ⟨1, bits, Nat.lt_of_lt_of_le (by decide : 1 < twoPow 1) (twoPow_le some),
      (Nat.one_mul _).symm⟩

theorem HasBits.mul {bits n : Nat} (fits : n ≤ twoPow bits) (some : 0 < bits) (scale : Nat) :
    HasBits bits (n * twoPow scale) := by
  obtain ⟨significand, inner, least, rfl⟩ := HasBits.of_le fits some
  exact ⟨significand, inner + scale, least, by rw [twoPow_add, Nat.mul_assoc]⟩

/-- What 53 bits hold lies on the grid of a scale or below the numbers that are rounded at it. -/
theorem HasBits.grid {n : Nat} (bits : HasBits 53 n) (scale : Nat) :
    (∃ factor, n = factor * twoPow scale) ∨ 0 < scale ∧ n < twoPow 52 * twoPow scale := by
  obtain ⟨significand, own, small, rfl⟩ := bits
  rcases Nat.lt_or_ge own scale with less | above
  · refine Or.inr ⟨Nat.zero_lt_of_lt less, ?_⟩
    calc significand * twoPow own < twoPow 53 * twoPow own :=
          Nat.mul_lt_mul_of_pos_right small (twoPow_pos own)
      _ = twoPow 52 * twoPow (own + 1) := by
          rw [← twoPow_add, ← twoPow_add]
          exact congrArg twoPow (by omega)
      _ ≤ twoPow 52 * twoPow scale := Nat.mul_le_mul_left _ (twoPow_le less)
  · refine Or.inl ⟨significand * twoPow (own - scale), ?_⟩
    rw [Nat.mul_assoc, ← twoPow_add, Nat.sub_add_cancel above]

/-- The number of 53 bits next to a natural number. -/
def nearestNat (n : Nat) : Nat :=
  roundDiv .toEven n (twoPow (scaleOf n 1)) * twoPow (scaleOf n 1)

/-- The number of 53 bits next to an integer. -/
def nearest (n : Int) : Int := if n < 0 then -(nearestNat n.natAbs : Int) else nearestNat n.natAbs

/-- What makes an integer the one that another is rounded to. -/
structure Nearest (n rounded : Int) : Prop where
  bits : HasBits 53 rounded.natAbs
  least : ∀ other : Int, HasBits 53 other.natAbs →
    (n - rounded).natAbs ≤ (n - other).natAbs
  even : ∀ other : Int, HasBits 53 other.natAbs → other ≠ rounded →
    (n - other).natAbs = (n - rounded).natAbs → HasBits 52 rounded.natAbs

theorem roundDiv_scaleOf_le (n : Nat) :
    roundDiv .toEven n (twoPow (scaleOf n 1)) ≤ twoPow 53 := by
  have less : n < twoPow 53 * (1 * twoPow (scaleOf n 1)) := lt_at_scaleOf Nat.one_pos
  rw [Nat.one_mul] at less
  exact roundDiv_le _ (twoPow_pos _) (Nat.le_of_lt less)

theorem nearestNat_least (n : Nat) {other : Nat} (bits : HasBits 53 other) :
    ((n : Int) - nearestNat n).natAbs ≤ ((n : Int) - other).natAbs ∧
      (((n : Int) - other).natAbs = ((n : Int) - nearestNat n).natAbs → other ≠ nearestNat n →
        HasBits 52 (nearestNat n)) := by
  have unit := twoPow_pos (scaleOf n 1)
  rcases bits.grid (scaleOf n 1) with ⟨factor, rfl⟩ | ⟨scaled, below⟩
  · have multiple := roundDiv_nearest n unit factor
    refine ⟨multiple.1, fun tie different => ?_⟩
    have even := multiple.2 tie fun same => different (by rw [same, nearestNat])
    have double : twoPow 53 = 2 * twoPow 52 := twoPow_succ 52
    have most := roundDiv_scaleOf_le n
    obtain ⟨half, whole⟩ : ∃ half, roundDiv .toEven n (twoPow (scaleOf n 1)) = 2 * half :=
      ⟨_, (Nat.mul_div_cancel' (Nat.dvd_of_mod_eq_zero even)).symm⟩
    have shape : nearestNat n = half * twoPow (scaleOf n 1 + 1) := by
      rw [nearestNat, whole, twoPow_succ, Nat.mul_left_comm, ← Nat.mul_assoc]
    rw [shape]
    exact HasBits.mul (by omega) (by decide) _
  · -- the least number that is rounded at this scale is nearer
    have above : twoPow 52 * (1 * twoPow (scaleOf n 1)) ≤ n := le_at_scaleOf Nat.one_pos scaled
    rw [Nat.one_mul] at above
    have multiple := (roundDiv_nearest n unit (twoPow 52)).1
    rw [← nearestNat] at multiple
    exact ⟨by omega, fun tie => by omega⟩

theorem natAbs_nearest (n : Int) : (nearest n).natAbs = nearestNat n.natAbs := by
  unfold nearest
  split <;> omega

theorem nearest_nearest (n : Int) : Nearest n (nearest n) := by
  have zeroBits : HasBits 53 0 := HasBits.of_le (Nat.zero_le _) (by decide)
  have zero := (nearestNat_least n.natAbs zeroBits).1
  have close (other : Int) (bits : HasBits 53 other.natAbs) := nearestNat_least n.natAbs bits
  have shape : nearest n = if n < 0 then -(nearestNat n.natAbs : Int) else nearestNat n.natAbs := rfl
  refine ⟨?_, fun other bits => ?_, fun other bits different tie => ?_⟩
  · rw [natAbs_nearest]
    exact HasBits.mul (roundDiv_scaleOf_le _) (by decide) _
  · have near := (close other bits).1
    split at shape <;> omega
  · rw [natAbs_nearest]
    refine (close other bits).2 ?_ ?_
    · have near := (close other bits).1
      split at shape <;> omega
    · have near := (close other bits).1
      split at shape <;> omega

variable {m n : Int}

/-- An integer of 53 bits is not rounded. -/
theorem nearest_eq_self (bits : HasBits 53 n.natAbs) : nearest n = n := by
  have least := (nearest_nearest n).least n bits
  omega

theorem nearest_of_le (small : n.natAbs ≤ twoPow 53) : nearest n = n :=
  nearest_eq_self (HasBits.of_le small (by decide))

theorem nearest_mono (ordered : m ≤ n) : nearest m ≤ nearest n := by
  have first := nearest_nearest m
  have second := nearest_nearest n
  rcases Int.lt_or_eq_of_le ordered with less | rfl
  · -- were they exchanged, both integers would lie on the far side of the middle
    apply Int.le_of_not_gt
    intro exchanged
    have low := first.least (nearest n) second.bits
    have high := second.least (nearest m) first.bits
    omega
  · exact Int.le_refl _

/-- Among the integers of 64 bits the numbers of 53 bits are at most 2048 apart. -/
theorem natAbs_sub_nearest_le (small : n.natAbs < twoPow 64) : (n - nearest n).natAbs ≤ 1024 := by
  have unit : twoPow (scaleOf n.natAbs 1) ≤ 2048 := by
    have log : scaleOf n.natAbs 1 ≤ scaleOf (twoPow 64 - 1) 1 :=
      scaleOf_mono (Nat.le_sub_one_of_lt small)
    calc twoPow (scaleOf n.natAbs 1) ≤ twoPow (scaleOf (twoPow 64 - 1) 1) := twoPow_le log
      _ = 2048 := by decide +kernel
  have half := sub_roundDiv_toEven n.natAbs (twoPow_pos (scaleOf n.natAbs 1))
  rw [← nearestNat] at half
  have shape : nearest n = if n < 0 then -(nearestNat n.natAbs : Int) else nearestNat n.natAbs := rfl
  split at shape <;> omega

variable {x : Binary64} {numerator denominator : Nat}

/-- A magnitude composed of a scale and a significand, the significand being that of the next scale
where it is the largest. -/
theorem units_of_magnitude {scale significand : Nat}
    (lower : twoPow 52 ≤ significand ∨ scale = 0) (upper : significand ≤ twoPow 53)
    (whole : x.magnitude = scale * twoPow 52 + significand) :
    x.units = significand * twoPow scale := by
  obtain ⟨small, normal, magnitude⟩ := x.placed
  have double : twoPow (scale + 1) = 2 * twoPow scale := twoPow_succ scale
  have single : twoPow 53 = 9007199254740992 := by decide
  have base : twoPow 52 = 4503599627370496 := by decide
  rw [base] at lower whole normal magnitude
  rw [single] at upper small
  unfold units
  rcases Nat.lt_or_eq_of_le upper with less | largest
  · have same : x.parts.1 = significand ∧ x.parts.2 = scale := by omega
    rw [same.1, same.2]
  · have same : x.parts.1 = 4503599627370496 ∧ x.parts.2 = scale + 1 := by omega
    rw [same.1, same.2, double, largest]
    omega

theorem units_ofRatio (negative : Bool) (positive : 0 < denominator)
    (finite : magnitudeOf (numerator * twoPow 1074) denominator ≤ infinity) :
    (ofRatio negative numerator denominator).units =
      roundDiv .toEven (numerator * twoPow 1074)
          (denominator * twoPow (scaleOf (numerator * twoPow 1074) denominator)) *
        twoPow (scaleOf (numerator * twoPow 1074) denominator) := by
  have unit := Nat.mul_pos positive (twoPow_pos (scaleOf (numerator * twoPow 1074) denominator))
  refine units_of_magnitude ?_ ?_ ?_
  · rcases Nat.eq_zero_or_pos (scaleOf (numerator * twoPow 1074) denominator) with zero | scaled
    · exact Or.inr zero
    · exact Or.inl (le_roundDiv _ unit (le_at_scaleOf positive scaled))
  · exact roundDiv_le _ unit (Nat.le_of_lt (lt_at_scaleOf positive))
  · rw [magnitude_ofRatio, Nat.min_eq_left finite, magnitudeOf]

/-- In units of `2 ^ -1074` an integer is rounded at a scale of its own or not at all. -/
theorem scaleOf_shifted (n : Nat) :
    scaleOf (n * twoPow 1074) 1 = scaleOf n 1 + 1074 ∨
      scaleOf n 1 = 0 ∧ scaleOf (n * twoPow 1074) 1 ≤ 1074 := by
  rcases Nat.eq_zero_or_pos n with rfl | positive
  · exact Or.inr ⟨by decide, by decide +kernel⟩
  · have present : n ≠ 0 := Nat.pos_iff_ne_zero.mp positive
    have shifted : Nat.log2 (n * twoPow 1074) = Nat.log2 n + 1074 := by
      refine (Nat.log2_eq_iff ?_).mpr ⟨?_, ?_⟩
      · exact Nat.pos_iff_ne_zero.mp (Nat.mul_pos positive (twoPow_pos _))
      · change twoPow (Nat.log2 n + 1074) ≤ _
        rw [twoPow_add]
        exact Nat.mul_le_mul_right _ (Nat.log2_self_le present)
      · change _ < twoPow (Nat.log2 n + 1074 + 1)
        rw [Nat.add_right_comm, twoPow_add]
        exact Nat.mul_lt_mul_of_pos_right Nat.lt_log2_self (twoPow_pos _)
    unfold scaleOf
    rw [Nat.div_one, Nat.div_one, shifted]
    omega

theorem roundDiv_shifted (n : Nat) :
    roundDiv .toEven (n * twoPow 1074) (1 * twoPow (scaleOf (n * twoPow 1074) 1)) *
        twoPow (scaleOf (n * twoPow 1074) 1) = nearestNat n * twoPow 1074 := by
  rw [Nat.one_mul]
  rcases scaleOf_shifted n with same | ⟨own, small⟩
  · rw [same, twoPow_add, roundDiv_mul_mul _ (twoPow_pos _), nearestNat, Nat.mul_assoc]
  · have whole : n * twoPow 1074 = n * twoPow (1074 - scaleOf (n * twoPow 1074) 1) *
        twoPow (scaleOf (n * twoPow 1074) 1) := by
      rw [Nat.mul_assoc, ← twoPow_add, Nat.sub_add_cancel small]
    have exact : nearestNat n = n := by rw [nearestNat, own, twoPow_zero, roundDiv_one, Nat.mul_one]
    rw [exact]
    generalize scaleOf (n * twoPow 1074) 1 = scale at whole ⊢
    rw [whole, roundDiv_mul _ _ (twoPow_pos _)]

/-- An integer of 64 bits becomes the nearest one of 53 bits. -/
theorem value_ofInt (small : n.natAbs ≤ twoPow 64) :
    (ofInt n).value = nearest n * (twoPow 1074 : Nat) := by
  have largest : magnitudeOf (twoPow 64 * twoPow 1074) 1 ≤ infinity := by decide +kernel
  have finite : magnitudeOf (n.natAbs * twoPow 1074) 1 ≤ infinity :=
    Nat.le_trans (magnitudeOf_mono Nat.one_pos (Nat.mul_le_mul_right _ small)) largest
  have units : (ofInt n).units = nearestNat n.natAbs * twoPow 1074 := by
    rw [ofInt, units_ofRatio _ Nat.one_pos finite, roundDiv_shifted]
  have sign : (ofInt n).negative = decide (n < 0) := rfl
  unfold value nearest
  rw [units, sign, Int.natCast_mul]
  by_cases below : n < 0
  · simp only [below, decide_true, ↓reduceIte, Int.neg_mul]
  · simp only [below, decide_false, Bool.false_eq_true, ↓reduceIte]

end Binary64

end QueryTemplate
