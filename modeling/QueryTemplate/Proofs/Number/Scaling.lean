import QueryTemplate.Json.NumberText
import QueryTemplate.Number.Digits
import QueryTemplate.Proofs.Number.Rounding

set_option autoImplicit false

/- Reading a number by way of a significand and a power of ten gives a finite number, unless the
power takes the significand to the end of the format's range. -/

namespace QueryTemplate

theorem tenPow_add (first second : Nat) : tenPow (first + second) = tenPow first * tenPow second :=
  Nat.pow_add 10 first second

theorem tenPow_le {first second : Nat} (ordered : first ≤ second) : tenPow first ≤ tenPow second :=
  Nat.pow_le_pow_right (by decide) ordered

namespace NumberText

open Binary64 (ofInt ofRatio)
open Decimal (AllDigits readOnto readNat)

theorem units_powerOfTen_zero : (powerOfTen 0).units = twoPow 1074 := by decide +kernel

theorem le_units_powerOfTen (exponent : Nat) : twoPow 1074 ≤ (powerOfTen exponent).units := by
  rw [← units_powerOfTen_zero]
  exact Binary64.units_mono (Binary64.ofRatio_mono _ Nat.one_pos (tenPow_pos exponent) _)

/-- A finite number. -/
def Lands (result : Option Binary64) : Prop := ∃ x, result = some x ∧ x.isFinite

variable {x y : Binary64}

theorem finite_div (finite : x.isFinite) (exponent : Nat) :
    (x.div (powerOfTen exponent)).isFinite := by
  have unit := le_units_powerOfTen exponent
  refine Binary64.isFinite_of_le finite (Binary64.ofRatio_le _ ?_ ?_)
  · exact Nat.lt_of_lt_of_le (twoPow_pos 1074) unit
  · rw [Nat.mul_comm]
    exact Nat.mul_le_mul_right _ unit

theorem finite_mul_one (finite : x.isFinite) : (x.mul (powerOfTen 0)).isFinite := by
  refine Binary64.isFinite_of_le finite (Binary64.ofRatio_le _ (twoPow_pos 2148) ?_)
  have square : twoPow 2148 = twoPow 1074 * twoPow 1074 := Binary64.twoPow_add 1074 1074
  exact Nat.le_of_eq (by rw [units_powerOfTen_zero, square, Nat.mul_assoc, Nat.mul_comm])

theorem mul_mono {x' y' : Binary64} (first : x.magnitude ≤ y.magnitude)
    (second : x'.magnitude ≤ y'.magnitude) : (x.mul x').magnitude ≤ (y.mul y').magnitude :=
  Binary64.ofRatio_mono _ (twoPow_pos 2148)
    (Nat.mul_le_mul (Binary64.units_mono first) (Binary64.units_mono second)) _

theorem ofInt_mono {first second : Nat} (ordered : first ≤ second) :
    (ofInt first).magnitude ≤ (ofInt second).magnitude :=
  Binary64.ofRatio_mono _ Nat.one_pos ordered _

theorem finite_ofInt {significand : Nat} (fits : significand ≤ significandMax) :
    (ofInt significand).isFinite := by
  have most : (ofInt (significandMax : Nat)).isFinite := by decide +kernel
  exact Binary64.isFinite_of_le most (ofInt_mono fits)

theorem scale_nonpos {exponent : Int} (finite : x.isFinite) (small : exponent ≤ 0) :
    Lands (scale x exponent) := by
  generalize size : exponent.natAbs = n
  induction n using Nat.strongRecOn generalizing x exponent with
  | ind n ih =>
      rw [scale]
      split
      next near =>
        split
        next nonneg =>
          have zero : exponent.natAbs = 0 := by omega
          rw [zero, if_pos (finite_mul_one finite)]
          exact ⟨_, rfl, finite_mul_one finite⟩
        next => exact ⟨_, rfl, finite_div finite _⟩
      next far =>
        split
        next => exact ⟨_, rfl, finite⟩
        next =>
          rw [if_neg (by omega)]
          exact ih _ (by omega) (finite_div finite _) (by omega) rfl

/-- The end of the interval of the reals that round to the last but one finite number. -/
def ceiling : Nat := (twoPow 55 - 6) * twoPow 969

theorem ceiling_lt : ceiling < tenPow 309 := by decide +kernel

theorem powerOfTen_mono {first second : Nat} (ordered : first ≤ second) :
    (powerOfTen first).magnitude ≤ (powerOfTen second).magnitude :=
  Binary64.ofRatio_mono _ Nat.one_pos (tenPow_le ordered) _

/-- Up to this power of ten no significand is too large. -/
theorem finite_significandMax :
    ((ofInt (significandMax : Nat)).mul (powerOfTen 288)).isFinite := by decide +kernel

/-- With the powers after it the largest significands under the ceiling stay finite. -/
theorem finite_ceiling : ∀ more < 20,
    ((ofInt (ceiling / tenPow (289 + more) : Nat)).mul (powerOfTen (289 + more))).isFinite := by
  decide +kernel

theorem exponent_lt {exponent : Nat} (bounded : tenPow exponent ≤ ceiling) : exponent < 309 :=
  Nat.lt_of_not_le fun large =>
    Nat.lt_irrefl _ (Nat.lt_of_le_of_lt (Nat.le_trans (tenPow_le large) bounded) ceiling_lt)

theorem finite_product {significand exponent : Nat} (near : exponent < 309)
    (fits : significand ≤ significandMax) (bounded : significand * tenPow exponent ≤ ceiling) :
    ((ofInt significand).mul (powerOfTen exponent)).isFinite := by
  rcases Nat.lt_or_ge exponent 289 with small | large
  · exact Binary64.isFinite_of_le finite_significandMax
      (mul_mono (ofInt_mono fits) (powerOfTen_mono (Nat.le_of_lt_succ small)))
  · obtain ⟨more, rfl⟩ := Nat.exists_eq_add_of_le large
    have below : significand ≤ ceiling / tenPow (289 + more) :=
      (Nat.le_div_iff_mul_le (tenPow_pos _)).mpr bounded
    exact Binary64.isFinite_of_le (finite_ceiling more (by omega))
      (mul_mono (ofInt_mono below) (Nat.le_refl _))

theorem scale_bounded {significand exponent : Nat} (present : 0 < significand)
    (fits : significand ≤ significandMax) (bounded : significand * tenPow exponent ≤ ceiling) :
    Lands (scale (ofInt significand) exponent) := by
  have near : exponent < 309 :=
    exponent_lt (Nat.le_trans (Nat.le_mul_of_pos_left _ present) bounded)
  have finite := finite_product near fits bounded
  rw [scale, if_pos (by omega), if_pos (by omega), Int.natAbs_natCast, if_pos finite]
  exact ⟨_, rfl, finite⟩

theorem le_readOnto (start : Nat) (digits : List Char) :
    start * tenPow digits.length ≤ readOnto start digits := by
  induction digits generalizing start with
  | nil => exact Nat.le_of_eq (Nat.mul_one _)
  | cons c digits ih =>
      calc start * tenPow (digits.length + 1) = start * 10 * tenPow digits.length := by
            rw [tenPow_succ, Nat.mul_assoc]
        _ ≤ (start * 10 + Decimal.digitValue c) * tenPow digits.length :=
            Nat.mul_le_mul_right _ (Nat.le_add_right _ _)
        _ ≤ readOnto start (c :: digits) := ih _

theorem start_le_readOnto (start : Nat) (digits : List Char) : start ≤ readOnto start digits :=
  Nat.le_trans (Nat.le_mul_of_pos_right _ (tenPow_pos _)) (le_readOnto start digits)

theorem readOnto_lt {digits : List Char} (all : AllDigits digits) (start : Nat) :
    readOnto start digits < (start + 1) * tenPow digits.length := by
  induction digits generalizing start with
  | nil => exact Nat.lt_of_lt_of_eq (Nat.lt_succ_self _) (Nat.mul_one _).symm
  | cons c digits ih =>
      have digit := all c List.mem_cons_self
      have small : Decimal.digitValue c ≤ 9 := by
        simp only [Char.isDigit, Bool.and_eq_true, decide_eq_true_eq] at digit
        have upper : c.toNat ≤ 57 := digit.2
        simp only [Decimal.digitValue, show ('0' : Char).toNat = 48 from rfl]
        omega
      calc readOnto start (c :: digits)
          < (start * 10 + Decimal.digitValue c + 1) * tenPow digits.length :=
            ih (fun other within => all other (List.mem_cons_of_mem _ within)) _
        _ ≤ (start + 1) * 10 * tenPow digits.length := Nat.mul_le_mul_right _ (by omega)
        _ = (start + 1) * tenPow (digits.length + 1) := by rw [tenPow_succ, Nat.mul_assoc]

theorem takeWhole_fits {start : Nat} {digits : List Char}
    (fits : readOnto start digits ≤ significandMax) :
    takeWhole start digits = (readOnto start digits, 0) := by
  induction digits generalizing start with
  | nil => rfl
  | cons c digits ih =>
      have next := start_le_readOnto (start * 10 + Decimal.digitValue c) digits
      rw [takeWhole, if_pos (Nat.le_trans next fits)]
      exact ih fits

theorem takeWhole_zero {digits : List Char} (fits : readNat digits ≤ significandMax) :
    takeWhole 0 digits = (readNat digits, 0) := takeWhole_fits fits

/-- The digits of a fraction that were read, and what is known of those that were not. -/
structure Taken (start : Nat) (digits : List Char) (result : Nat × Nat) : Prop where
  grows : start ≤ result.1
  fits : result.1 ≤ significandMax
  count : result.2 ≤ digits.length
  below : result.1 * tenPow (digits.length - result.2) ≤ readOnto start digits

theorem taken_takeFraction {start : Nat} (room : start ≤ significandMax) (digits : List Char) :
    Taken start digits (takeFraction start digits) := by
  induction digits generalizing start with
  | nil => exact ⟨Nat.le_refl _, room, Nat.le_refl _, Nat.le_of_eq (Nat.mul_one _)⟩
  | cons c digits ih =>
      rw [takeFraction]
      split
      next fits =>
        obtain ⟨more, room', count, below⟩ := ih fits
        refine ⟨Nat.le_trans (by omega) more, room', Nat.succ_le_succ count, ?_⟩
        rwa [List.length_cons, Nat.add_sub_add_right]
      next => exact ⟨Nat.le_refl _, room, Nat.zero_le _, le_readOnto start (c :: digits)⟩

variable {text : NumberText}

theorem Lands.withSign {result : Option Binary64} (lands : Lands result) (negative : Bool) :
    Lands (result.map (·.withSign negative)) := by
  obtain ⟨x, rfl, finite⟩ := lands
  exact ⟨x.withSign negative, rfl, finite⟩

theorem toFloat?_plain (plain : text.exponent = none)
    (fits : readNat text.whole ≤ significandMax) : Lands text.toFloat? := by
  have taken := taken_takeFraction fits text.fraction
  simp only [toFloat?, plain, takeWhole_zero fits]
  refine Lands.withSign (scale_nonpos (finite_ofInt taken.fits) ?_) _
  omega

theorem toFloat?_small {digits : List Char} (small : text.exponent = some (true, digits))
    (fits : readNat text.whole ≤ significandMax) : Lands text.toFloat? := by
  have taken := taken_takeFraction fits text.fraction
  simp only [toFloat?, small, takeWhole_zero fits]
  refine Lands.withSign ?_ _
  split
  · apply scale_nonpos (finite_ofInt taken.fits)
    simp only [↓reduceIte]
    omega
  · exact ⟨Binary64.zero, by simp, by decide⟩

theorem toFloat?_large {digits : List Char} (large : text.exponent = some (false, digits))
    (present : 0 < readNat text.whole) (fits : readNat text.whole ≤ significandMax)
    (bounded : readOnto (readNat text.whole) text.fraction * tenPow (readNat digits) ≤
      ceiling * tenPow text.fraction.length) : Lands text.toFloat? := by
  have near : readNat digits < 309 := by
    refine exponent_lt (Nat.le_of_mul_le_mul_right ?_ (tenPow_pos text.fraction.length))
    calc tenPow (readNat digits) * tenPow text.fraction.length
        = tenPow text.fraction.length * tenPow (readNat digits) := Nat.mul_comm _ _
      _ ≤ readOnto (readNat text.whole) text.fraction * tenPow (readNat digits) := by
          refine Nat.mul_le_mul_right _ (Nat.le_trans ?_ (le_readOnto _ _))
          exact Nat.le_mul_of_pos_left _ present
      _ ≤ ceiling * tenPow text.fraction.length := bounded
  have inRange : readNat digits ≤ exponentMax := Nat.le_trans (Nat.le_of_lt near) (by decide)
  have taken := taken_takeFraction fits text.fraction
  simp only [toFloat?, large, takeWhole_zero fits, if_pos inRange, Bool.false_eq_true, ↓reduceIte]
  refine Lands.withSign ?_ _
  generalize takeFraction _ text.fraction = result at taken
  rcases Nat.le_total result.2 (readNat digits) with inside | beyond
  · have exponent : ((0 : Nat) : Int) - (result.2 : Int) + (readNat digits : Int) =
        ((readNat digits - result.2 : Nat) : Int) := by omega
    rw [exponent]
    apply scale_bounded (Nat.lt_of_lt_of_le present taken.grows) taken.fits
    refine Nat.le_of_mul_le_mul_right ?_ (tenPow_pos text.fraction.length)
    calc result.1 * tenPow (readNat digits - result.2) * tenPow text.fraction.length
        = result.1 * tenPow (text.fraction.length - result.2) * tenPow (readNat digits) := by
          have count := taken.count
          rw [Nat.mul_assoc, Nat.mul_assoc, ← tenPow_add, ← tenPow_add]
          congr 2
          omega
      _ ≤ readOnto (readNat text.whole) text.fraction * tenPow (readNat digits) :=
          Nat.mul_le_mul_right _ taken.below
      _ ≤ ceiling * tenPow text.fraction.length := bounded
  · exact scale_nonpos (finite_ofInt taken.fits) (by omega)

theorem toNumber?_float (other : text.fraction ≠ [] ∨ text.exponent ≠ none)
    (lands : Lands text.toFloat?) : ∃ x, text.toNumber? = some (.float x) ∧ x.isFinite := by
  obtain ⟨x, found, finite⟩ := lands
  refine ⟨x, ?_, finite⟩
  unfold toNumber?
  split
  next fraction exponent => simp [fraction, exponent] at other
  next => rw [found, Option.map_some]

end NumberText

end QueryTemplate
