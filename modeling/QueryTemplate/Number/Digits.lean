import QueryTemplate.Number.DecimalText
import QueryTemplate.Text.Solid

set_option autoImplicit false

/- Runs of decimal digits: what they are read as, and where a reader of digits stops. -/

namespace QueryTemplate.Decimal

def AllDigits (chars : List Char) : Prop := ∀ c ∈ chars, c.isDigit = true

/-- No digit comes next. -/
def Stops (rest : List Char) : Prop := ∀ c, rest.head? = some c → c.isDigit = false

theorem allDigits_natText (n : Nat) : AllDigits (natText n) :=
  fun _ => Nat.isDigit_of_mem_toDigits (by decide) (by decide)

theorem natText_ne_nil (n : Nat) : natText n ≠ [] := Nat.toDigits_ne_nil

theorem AllDigits.append {first second : List Char} (front : AllDigits first)
    (back : AllDigits second) : AllDigits (first ++ second) := by
  intro c within
  rcases List.mem_append.mp within with within | within
  · exact front c within
  · exact back c within

theorem allDigits_zeros (count : Nat) : AllDigits (zeros count) := by
  intro c within
  rw [List.eq_of_mem_replicate within]
  rfl

theorem takeWhile_digits {digits rest : List Char} (all : AllDigits digits) (stops : Stops rest) :
    (digits ++ rest).takeWhile Char.isDigit = digits := by
  rw [List.takeWhile_append_of_pos all]
  cases rest with
  | nil => simp only [List.takeWhile_nil, List.append_nil]
  | cons c rest =>
      rw [List.takeWhile_cons_of_neg (by simp [stops c rfl]), List.append_nil]

theorem dropWhile_digits {digits rest : List Char} (all : AllDigits digits) (stops : Stops rest) :
    (digits ++ rest).dropWhile Char.isDigit = rest := by
  rw [List.dropWhile_append_of_pos all]
  cases rest with
  | nil => rfl
  | cons c rest => rw [List.dropWhile_cons_of_neg (by simp [stops c rfl])]

/-- Only zero has a leading zero. -/
theorem natText_head {n : Nat} (positive : 0 < n) : ∃ c rest, natText n = c :: rest ∧ c ≠ '0' := by
  induction n using Nat.strongRecOn with
  | ind n ih =>
      unfold natText
      by_cases small : n < 10
      · rw [Nat.toDigits_of_lt_base small]
        refine ⟨Nat.digitChar n, [], rfl, fun same => ?_⟩
        have value := Nat.toNat_digitChar_of_lt_ten small
        rw [same, show ('0' : Char).toNat = 48 from rfl] at value
        omega
      · rw [Nat.toDigits_of_base_le (by decide) (by omega)]
        obtain ⟨c, rest, spelled, other⟩ := ih (n / 10) (by omega) (by omega)
        rw [natText] at spelled
        exact ⟨c, _, by rw [spelled]; rfl, other⟩

theorem readOnto_eq (start : Nat) (digits : List Char) :
    readOnto start digits = Nat.ofDigitChars 10 digits start := by
  simp only [readOnto, Nat.ofDigitChars_eq_foldl, digitValue, Nat.mul_comm 10]

theorem readNat_natText (n : Nat) : readNat (natText n) = n := by
  rw [readNat, readOnto_eq, natText, Nat.ofDigitChars_ten_toDigits]

theorem isBlank_digit {c : Char} (digit : c.isDigit = true) : Text.isBlank c = false := by
  simp only [Char.isDigit, Bool.and_eq_true, decide_eq_true_eq, ge_iff_le, UInt32.le_iff_toNat_le]
    at digit
  have least : 48 ≤ c.toNat := digit.1
  have most : c.toNat ≤ 57 := digit.2
  simp only [Text.isBlank, Bool.or_eq_false_iff, Bool.and_eq_false_iff, decide_eq_false_iff_not,
    beq_eq_false_iff_ne]
  omega

theorem solid_natText (n : Nat) : Text.Solid (natText n) := by
  apply Text.Solid.of_filled (natText_ne_nil n)
  intro c within
  exact isBlank_digit (allDigits_natText n c within)

end QueryTemplate.Decimal
