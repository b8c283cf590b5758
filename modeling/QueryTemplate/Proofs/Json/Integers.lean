import QueryTemplate.Proofs.Json.Ordering
import QueryTemplate.Proofs.Number.Integers

set_option autoImplicit false

/- Comparisons of integers. Every operator says of two integers of 64 bits what it says of the
integers of 53 bits next to them, so it is wrong only of two different integers that have the same
one next to them. These lie no more than 2048 apart, and neither of them below `2 ^ 53`. -/

namespace QueryTemplate

/-- The integers that JSON numbers hold: those of 64 bits, with or without a sign. -/
def Number.InRange (n : Int) : Prop := -(twoPow 63 : Int) ≤ n ∧ n < (twoPow 64 : Int)

instance (n : Int) : Decidable (Number.InRange n) := inferInstanceAs (Decidable (_ ∧ _))

namespace BinaryOp

open Binary64 (nearest)

theorem relates_mul {factor : Int} (positive : 0 < factor) (op : BinaryOp) (x y : Int) :
    op.Relates (x * factor) (y * factor) ↔ op.Relates x y := by
  have same : x * factor = y * factor ↔ x = y := Int.mul_eq_mul_right_iff (Int.ne_of_gt positive)
  cases op with
  | eq => exact same
  | notEq => exact not_congr same
  | less => exact Int.mul_lt_mul_right positive
  | lessEq => exact Int.mul_le_mul_right positive
  | greater => exact Int.mul_lt_mul_right positive
  | greaterEq => exact Int.mul_le_mul_right positive
  | and => exact Iff.rfl
  | or => exact Iff.rfl

/-- Rounding keeps every relation between two integers that it does not make equal. -/
theorem relates_nearest {a b : Int} (apart : nearest a ≠ nearest b) (op : BinaryOp) :
    op.Relates (nearest a) (nearest b) ↔ op.Relates a b := by
  have forth : a ≤ b → nearest a ≤ nearest b := Binary64.nearest_mono
  have back : b ≤ a → nearest b ≤ nearest a := Binary64.nearest_mono
  cases op <;> simp only [Relates] <;> omega

end BinaryOp

namespace Number

open Binary64 (Nearest nearest HasBits)

variable {a b : Int}

theorem InRange.natAbs_lt (held : InRange a) : a.natAbs < twoPow 64 := by
  obtain ⟨low, high⟩ := held
  have double : twoPow 64 = 2 * twoPow 63 := twoPow_succ 63
  have half := twoPow_pos 63
  omega

theorem value_int (held : InRange a) : (Number.int a).value = nearest a * (twoPow 1074 : Nat) :=
  Binary64.value_ofInt (Nat.le_of_lt held.natAbs_lt)

/-- What 53 bits hold is next to itself only, up to `2 ^ 53`. -/
theorem le_of_nearest_eq (different : a ≠ b) (same : nearest a = nearest b) :
    twoPow 53 ≤ a.natAbs := by
  apply Nat.le_of_not_lt
  intro small
  have exact : nearest a = a := Binary64.nearest_of_le (Nat.le_of_lt small)
  have least := (Binary64.nearest_nearest b).least
  rcases Nat.lt_or_ge (twoPow 53) b.natAbs with large | small'
  · -- the end of the exact integers is nearer than any integer before it
    have bits : HasBits 53 (twoPow 53) := HasBits.of_le (Nat.le_refl _) (by decide)
    have above := least (twoPow 53) bits
    have below := least (-(twoPow 53 : Int)) (by rwa [Int.natAbs_neg, Int.natAbs_natCast])
    omega
  · have exact' : nearest b = b := Binary64.nearest_of_le small'
    omega

theorem natAbs_sub_le (first : InRange a) (second : InRange b) (same : nearest a = nearest b) :
    (a - b).natAbs ≤ 2048 := by
  have left := Binary64.natAbs_sub_nearest_le first.natAbs_lt
  have right := Binary64.natAbs_sub_nearest_le second.natAbs_lt
  omega

end Number

namespace Json

open Binary64 (Nearest nearest)

variable {a b : Int}

theorem int_holds_iff (first : Number.InRange a) (second : Number.InRange b) (op : BinaryOp) :
    op.holds (number (.int a)) (number (.int b)) = true ↔ op.Relates (nearest a) (nearest b) := by
  rw [(number_compares (.int a) (.int b)).holds_iff, Number.value_int first,
    Number.value_int second]
  exact BinaryOp.relates_mul (Int.natCast_pos.mpr (twoPow_pos 1074)) op _ _

/-- Every operator says of two integers what it says of the nearest integers of 53 bits, a tie going
to the one that needs fewer. So all of them are right unless the integers differ and the nearest
ones do not, and then neither integer is below `2 ^ 53` in size and they are at most 2048 apart. -/
theorem integers_compare_rounded (first : Number.InRange a) (second : Number.InRange b) :
    (∀ op : BinaryOp, op.holds (number (.int a)) (number (.int b)) = true ↔
        op.Relates (nearest a) (nearest b)) ∧
      Nearest a (nearest a) ∧ Nearest b (nearest b) ∧
      ((∀ op : BinaryOp, op.holds (number (.int a)) (number (.int b)) = true ↔ op.Relates a b) ↔
        a = b ∨ nearest a ≠ nearest b) ∧
      (a ≠ b → nearest a = nearest b →
        twoPow 53 ≤ a.natAbs ∧ twoPow 53 ≤ b.natAbs ∧ (a - b).natAbs ≤ 2048) := by
  have rounded := int_holds_iff first second
  refine ⟨rounded, Binary64.nearest_nearest a, Binary64.nearest_nearest b, ⟨?_, ?_⟩, ?_⟩
  · intro right
    by_cases same : nearest a = nearest b
    · exact Or.inl ((right .eq).mp ((rounded .eq).mpr same))
    · exact Or.inr same
  · rintro (rfl | apart) op
    · rw [rounded]
      cases op <;> simp [BinaryOp.Relates]
    · rw [rounded, BinaryOp.relates_nearest apart]
  · intro different same
    exact ⟨Number.le_of_nearest_eq different same, Number.le_of_nearest_eq different.symm same.symm,
      Number.natAbs_sub_le first second same⟩

/-- The greatest integer of 64 bits and the one before it by 1023 are both next to `2 ^ 64`. -/
theorem integers_compare_rounded_greatest :
    Number.InRange 18446744073709551615 ∧ Number.InRange 18446744073709550592 ∧
      nearest 18446744073709551615 = nearest 18446744073709550592 ∧
      BinaryOp.lessEq.holds (number (.int 18446744073709551615))
        (number (.int 18446744073709550592)) = true ∧
      twoPow 53 ≤ (18446744073709551615 : Int).natAbs := by
  have first : Number.InRange 18446744073709551615 := by decide +kernel
  have second : Number.InRange 18446744073709550592 := by decide +kernel
  have same : nearest 18446744073709551615 = nearest 18446744073709550592 := by decide +kernel
  have law := integers_compare_rounded first second
  exact ⟨first, second, same, (law.1 .lessEq).mpr (Int.le_of_eq same),
    (law.2.2.2.2 (by decide) same).1⟩

/-- Two different integers are equal: `2 ^ 53` and the next. -/
theorem different_integers_equal :
    Number.InRange 9007199254740992 ∧ Number.InRange 9007199254740993 ∧
      (9007199254740992 : Int) < 9007199254740993 ∧
      BinaryOp.eq.holds (number (.int 9007199254740992)) (number (.int 9007199254740993)) = true ∧
      BinaryOp.less.holds (number (.int 9007199254740992))
        (number (.int 9007199254740993)) = false := by
  decide +kernel

end Json

end QueryTemplate
