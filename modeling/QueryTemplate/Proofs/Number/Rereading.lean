import QueryTemplate.Proofs.Json.Numerals
import QueryTemplate.Proofs.Number.Scaling

set_option autoImplicit false

/- The text of a finite number is read as a finite number, if not always as the same one. -/

namespace QueryTemplate

namespace Decimal

open NumberText (ceiling significandMax)

/-- Where the interval of any number but the last ends. -/
theorem high_le {x : Binary64} (inner : x.magnitude + 1 < Binary64.infinity) :
    (interval x).high ≤ (twoPow 55 - 6) * twoPow 2045 * tenPow shift := by
  obtain ⟨significand, normal, magnitude⟩ := x.placed
  have double : twoPow 53 = 2 * twoPow 52 := twoPow_succ 52
  have fourth : twoPow 55 = 4 * twoPow 53 := by decide
  have many : 4 ≤ twoPow 52 := by decide
  have infinite : Binary64.infinity = 2047 * twoPow 52 := rfl
  have shape : (interval x).high =
      (4 * x.parts.1 + 2) * twoPow x.parts.2 * tenPow shift := (Nat.mul_assoc _ _ _).symm
  rw [shape]
  apply Nat.mul_le_mul_right _
  generalize x.parts.1 = digits at *
  generalize x.parts.2 = scale at *
  have most : scale ≤ 2045 := by
    rcases normal with large | least
    · apply Nat.le_of_not_lt
      intro beyond
      have far := Nat.mul_le_mul_right (twoPow 52) beyond
      omega
    · omega
  rcases Nat.lt_or_eq_of_le most with less | rfl
  · have step : twoPow 2045 = 2 * twoPow 2044 := twoPow_succ 2044
    calc (4 * digits + 2) * twoPow scale
        ≤ (2 * (twoPow 55 - 6)) * twoPow 2044 :=
          Nat.mul_le_mul (by omega) (Binary64.twoPow_le (Nat.le_of_lt_succ less))
      _ = (twoPow 55 - 6) * twoPow 2045 := by rw [step, Nat.mul_comm 2, Nat.mul_assoc]
  · exact Nat.mul_le_mul_right _ (by omega)

variable {d : Decimal}

theorem readNat_le {digits : List Char} (all : AllDigits digits) (short : digits.length ≤ 16) :
    readNat digits ≤ significandMax := by
  have below := NumberText.readOnto_lt all 0
  have most := tenPow_le short
  have fits : tenPow 16 ≤ significandMax := by decide
  rw [Nat.zero_add, Nat.one_mul] at below
  exact Nat.le_trans (Nat.le_of_lt below) (Nat.le_trans most fits)

theorem length_wholeDigits (fractional : d.exponent < 0) (moderate : d.leading < 16) :
    d.wholeDigits.length ≤ 16 := by
  have count : d.leading = d.exponent + (natText d.digits).length - 1 := rfl
  simp only [wholeDigits]
  split
  · rw [List.length_take]
    omega
  · decide

theorem plain_lands (negative : Bool) (moderate : -5 ≤ d.leading ∧ d.leading < 16) :
    ∃ x, (d.numeral negative).toNumber? = some (.float x) ∧ x.isFinite := by
  have count : d.leading = d.exponent + (natText d.digits).length - 1 := rfl
  rw [numeral, if_pos moderate]
  split
  next fractional =>
    refine NumberText.toNumber?_float (Or.inl (fractionDigits_ne_nil fractional)) ?_
    exact NumberText.toFloat?_plain rfl
      (readNat_le (allDigits_whole d) (length_wholeDigits fractional moderate.2))
  next whole =>
    refine NumberText.toNumber?_float (Or.inl (List.cons_ne_nil _ _)) ?_
    refine NumberText.toFloat?_plain rfl (readNat_le ?_ ?_)
    · exact (allDigits_natText _).append (allDigits_zeros _)
    · rw [List.length_append, zeros, List.length_replicate]
      omega

theorem first_digit_pos {n : Nat} (positive : 0 < n) : 0 < readNat ((natText n).take 1) := by
  obtain ⟨c, rest, spelled, nonzero⟩ := natText_head positive
  have digit : c.isDigit := allDigits_natText n c (by rw [spelled]; exact List.mem_cons_self)
  rw [spelled, List.take_succ_cons, List.take_zero]
  simp only [Char.isDigit, Bool.and_eq_true, decide_eq_true_eq] at digit
  have lower : 48 ≤ c.toNat := digit.1
  have other : c.toNat ≠ 48 := fun same => nonzero (Char.toNat_inj.mp same)
  change 0 < 0 * 10 + (c.toNat - 48)
  omega

theorem readOnto_take_drop (digits : List Char) (count : Nat) :
    readOnto (readNat (digits.take count)) (digits.drop count) = readNat digits := by
  rw [readNat, readOnto, readOnto, ← List.foldl_append, List.take_append_drop]
  rfl

theorem scientific_lands (negative : Bool) {place : Nat} (positive : 0 < d.digits)
    (exponent : d.exponent = (place : Int) - shift)
    (bounded : d.digits * unitAt place ≤ (twoPow 55 - 6) * twoPow 2045 * tenPow shift)
    (extreme : ¬ (-5 ≤ d.leading ∧ d.leading < 16)) :
    ∃ x, (d.numeral negative).toNumber? = some (.float x) ∧ x.isFinite := by
  have count : d.leading = d.exponent + (natText d.digits).length - 1 := rfl
  have short : ((natText d.digits).take 1).length ≤ 16 := by rw [List.length_take]; omega
  have fits := readNat_le (allDigits_take (allDigits_natText d.digits) 1) short
  rw [numeral, if_neg extreme]
  refine NumberText.toNumber?_float (Or.inr (by simp)) ?_
  by_cases small : d.leading < 0
  · exact NumberText.toFloat?_small (by rw [decide_eq_true small]) fits
  · refine NumberText.toFloat?_large (by rw [decide_eq_false small]) (first_digit_pos positive) fits ?_
    rw [readOnto_take_drop, readNat_natText, readNat_natText, List.length_drop]
    have present : 0 < (natText d.digits).length := Nat.length_toDigits_pos
    generalize (natText d.digits).length = length at count present
    refine Nat.le_of_mul_le_mul_right ?_ (Nat.mul_pos (tenPow_pos shift) (twoPow_pos 1076))
    calc d.digits * tenPow d.leading.natAbs * (tenPow shift * twoPow 1076)
        = d.digits * (tenPow (d.leading.natAbs + shift) * twoPow 1076) := by
          rw [tenPow_add, Nat.mul_assoc, Nat.mul_assoc]
      _ = d.digits * unitAt place * tenPow (length - 1) := by
          have same : d.leading.natAbs + shift = place + (length - 1) := by omega
          rw [same, tenPow_add, unitAt, Nat.mul_right_comm (tenPow place),
            Nat.mul_assoc d.digits]
      _ ≤ (twoPow 55 - 6) * twoPow 2045 * tenPow shift * tenPow (length - 1) :=
          Nat.mul_le_mul_right _ bounded
      _ = ceiling * tenPow (length - 1) * (tenPow shift * twoPow 1076) := by
          have halves : twoPow 2045 = twoPow 969 * twoPow 1076 := Binary64.twoPow_add 969 1076
          rw [halves, ceiling]
          generalize twoPow 969 = low, twoPow 1076 = high, tenPow shift = scaled
          ac_rfl

theorem shortest_lands (tie : Tie) {x : Binary64} (inner : x.magnitude + 1 < Binary64.infinity)
    (negative : Bool) :
    ∃ y, ((shortest tie x).numeral negative).toNumber? = some (.float y) ∧ y.isFinite := by
  by_cases moderate : -5 ≤ (shortest tie x).leading ∧ (shortest tie x).leading < 16
  · exact plain_lands negative moderate
  · cases zero : x.isZero with
    | true =>
        have same : shortest tie x = ⟨0, 0⟩ := by simp only [shortest, zero, ↓reduceIte]
        rw [same] at moderate
        exact absurd (by decide) moderate
    | false =>
        obtain ⟨place, exponent, positive, bounded⟩ := shortest_within tie zero
        exact scientific_lands negative positive exponent (Nat.le_trans bounded (high_le inner))
          moderate

end Decimal

/-- The last finite number of either sign is read as itself. -/
theorem Number.last_lands : ∀ negative : Bool,
    (Number.float ⟨negative, Binary64.infinity - 1, by decide⟩).reread? =
      some (.float ⟨negative, Binary64.infinity - 1, by decide⟩) := by decide +kernel

/-- The text of a finite number is read as a finite number. -/
theorem Number.reread?_float {x : Binary64} (finite : x.isFinite) :
    ∃ y, (Number.float x).reread? = some (.float y) ∧ y.isFinite := by
  simp only [Binary64.isFinite, decide_eq_true_eq] at finite
  rcases Nat.lt_or_eq_of_le (Nat.succ_le_of_lt finite) with inner | last
  · exact Decimal.shortest_lands .toEven inner x.negative
  · obtain ⟨negative, magnitude, bounded⟩ := x
    have same : magnitude = Binary64.infinity - 1 := by
      simp only at last
      omega
    subst same
    exact ⟨_, Number.last_lands negative, decide_eq_true finite⟩

end QueryTemplate
