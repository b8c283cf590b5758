import Mathlib.Data.Int.Order.Basic
import Mathlib.Data.String.Basic
import Mathlib.Logic.ExistsUnique
import Mathlib.Order.Compare
import Mathlib.Tactic.FinCases
import QueryTemplate.Expr.Operator
import QueryTemplate.Proofs.Number.Values

set_option autoImplicit false

/- The order of JSON values. Two numbers, two strings and two booleans compare as members of a
linear order do: numbers by their values, strings by their code points, booleans with false first.
No other two values have an order. -/

namespace QueryTemplate

namespace BinaryOp

/-- The operators that are false where there is no order. -/
def orderings : List BinaryOp := [less, lessEq, greater, greaterEq]

section Relations

variable {α : Type} [LinearOrder α]

/-- What an operator says of two members of a linear order. -/
def Relates (op : BinaryOp) (x y : α) : Prop :=
  match op with
  | eq => x = y
  | notEq => x ≠ y
  | less => x < y
  | lessEq => x ≤ y
  | greater => y < x
  | greaterEq => y ≤ x
  | and | or => False

end Relations

end BinaryOp

/-- The value in units of `2 ^ -1074`; of an integer, that of the floating-point number next to it. -/
def Number.value (n : Number) : Int := n.toBinary64.value

namespace Json

open BinaryOp (less lessEq greater greaterEq)

section Comparisons

variable {α : Type} [LinearOrder α]

/-- Two values compare as two members of a linear order. -/
structure ComparesAs (a b : Json) (x y : α) : Prop where
  order : a.compare? b = some (compare x y)
  equal : a.equal b = decide (x = y)

variable {a b c : Json} {x y z : α}

/-- All operators say of two values what they say of the two members. -/
theorem ComparesAs.holds_iff (as : ComparesAs a b x y) (op : BinaryOp) :
    op.holds a b = true ↔ op.Relates x y := by
  have order := as.order
  have equal := as.equal
  rcases lt_trichotomy x y with below | same | above
  · rw [compare_lt_iff_lt.mpr below] at order
    cases op <;>
      simp [BinaryOp.holds, BinaryOp.Relates, order, equal, below, below.le, below.ne, below.not_gt]
  · rw [compare_eq_iff_eq.mpr same] at order
    cases op <;> simp [BinaryOp.holds, BinaryOp.Relates, order, equal, same]
  · rw [compare_gt_iff_gt.mpr above] at order
    cases op <;>
      simp [BinaryOp.holds, BinaryOp.Relates, order, equal, above, above.le, above.ne', above.not_gt]

theorem ComparesAs.flip (forth : ComparesAs a b x y) (back : ComparesAs b a y x) :
    less.holds a b = greater.holds b a ∧ lessEq.holds a b = greaterEq.holds b a := by
  simp only [Bool.eq_iff_iff, forth.holds_iff, back.holds_iff]
  exact ⟨Iff.rfl, Iff.rfl⟩

theorem ComparesAs.one (as : ComparesAs a b x y) :
    ∃! op, op ∈ [less, .eq, greater] ∧ op.holds a b = true := by
  simp only [as.holds_iff]
  rcases lt_trichotomy x y with below | same | above
  · refine ⟨less, ⟨by decide, below⟩, fun op ⟨among, related⟩ => ?_⟩
    fin_cases among
    · rfl
    · exact absurd related below.ne
    · exact absurd related below.not_gt
  · refine ⟨.eq, ⟨by decide, same⟩, fun op ⟨among, related⟩ => ?_⟩
    fin_cases among
    · exact absurd same related.ne
    · rfl
    · exact absurd same related.ne'
  · refine ⟨greater, ⟨by decide, above⟩, fun op ⟨among, related⟩ => ?_⟩
    fin_cases among
    · exact absurd related above.not_gt
    · exact absurd related above.ne'
    · rfl

theorem ComparesAs.lessEq_iff (as : ComparesAs a b x y) :
    lessEq.holds a b = true ↔ less.holds a b = true ∨ BinaryOp.eq.holds a b = true := by
  simp only [as.holds_iff]
  exact le_iff_lt_or_eq

theorem ComparesAs.trans (first : ComparesAs a b x y) (second : ComparesAs b c y z)
    (both : ComparesAs a c x z) :
    (less.holds a b = true → less.holds b c = true → less.holds a c = true) ∧
      (lessEq.holds a b = true → lessEq.holds b c = true → lessEq.holds a c = true) := by
  simp only [first.holds_iff, second.holds_iff, both.holds_iff]
  exact ⟨lt_trans, le_trans⟩

end Comparisons

theorem number_compares (m n : Number) : ComparesAs (number m) (number n) m.value n.value := by
  have order : compare? (number m) (number n) = some (compare m.value n.value) :=
    congrArg some (Binary64.compare_key m.toBinary64 n.toBinary64)
  refine ⟨order, ?_⟩
  rw [equal, order]
  by_cases same : m.value = n.value <;> simp [same]

theorem string_compares (s t : String) : ComparesAs (string s) (string t) s t :=
  ⟨rfl, rfl⟩

theorem bool_compares (p q : Bool) : ComparesAs (bool p) (bool q) p q :=
  ⟨rfl, rfl⟩

/-- Two values of one kind that has an order. -/
inductive Ordered : Json → Json → Prop
  | numbers (m n : Number) : Ordered (number m) (number n)
  | strings (s t : String) : Ordered (string s) (string t)
  | bools (p q : Bool) : Ordered (bool p) (bool q)

variable {a b c : Json}

theorem ordered_of_holds {op : BinaryOp} (ordering : op ∈ BinaryOp.orderings)
    (holds : op.holds a b = true) : Ordered a b := by
  have present : a.compare? b ≠ none := by
    intro none
    fin_cases ordering <;> simp [BinaryOp.holds, none] at holds
  unfold compare? at present
  split at present
  · exact .numbers _ _
  · exact .strings _ _
  · exact .bools _ _
  · exact absurd rfl present

theorem Ordered.swap (kind : Ordered a b) : Ordered b a := by
  cases kind with
  | numbers m n => exact .numbers n m
  | strings s t => exact .strings t s
  | bools p q => exact .bools q p

theorem holds_eq_false {op : BinaryOp} (ordering : op ∈ BinaryOp.orderings)
    (unordered : ¬ Ordered a b) : op.holds a b = false :=
  Bool.eq_false_iff.mpr fun holds => unordered (ordered_of_holds ordering holds)

theorem holds_flip (a b : Json) :
    less.holds a b = greater.holds b a ∧ lessEq.holds a b = greaterEq.holds b a := by
  by_cases kind : Ordered a b
  · cases kind with
    | numbers m n => exact (number_compares m n).flip (number_compares n m)
    | strings s t => exact (string_compares s t).flip (string_compares t s)
    | bools p q => exact (bool_compares p q).flip (bool_compares q p)
  · have reverse : ¬ Ordered b a := fun back => kind back.swap
    rw [holds_eq_false (by decide) kind, holds_eq_false (by decide) reverse,
      holds_eq_false (by decide) kind, holds_eq_false (by decide) reverse]
    exact ⟨rfl, rfl⟩

theorem Ordered.one (kind : Ordered a b) :
    ∃! op, op ∈ [less, .eq, greater] ∧ op.holds a b = true := by
  cases kind with
  | numbers m n => exact (number_compares m n).one
  | strings s t => exact (string_compares s t).one
  | bools p q => exact (bool_compares p q).one

theorem Ordered.lessEq_iff (kind : Ordered a b) :
    lessEq.holds a b = true ↔ less.holds a b = true ∨ BinaryOp.eq.holds a b = true := by
  cases kind with
  | numbers m n => exact (number_compares m n).lessEq_iff
  | strings s t => exact (string_compares s t).lessEq_iff
  | bools p q => exact (bool_compares p q).lessEq_iff

theorem Ordered.trans (first : Ordered a b) (second : Ordered b c) :
    (less.holds a b = true → less.holds b c = true → less.holds a c = true) ∧
      (lessEq.holds a b = true → lessEq.holds b c = true → lessEq.holds a c = true) := by
  cases first with
  | numbers m n =>
      cases second with
      | numbers _ k =>
          exact (number_compares m n).trans (number_compares n k) (number_compares m k)
  | strings s t =>
      cases second with
      | strings _ u =>
          exact (string_compares s t).trans (string_compares t u) (string_compares s u)
  | bools p q =>
      cases second with
      | bools _ r => exact (bool_compares p q).trans (bool_compares q r) (bool_compares p r)

/-- The ordering operators are those of one order: `>` and `>=` are the converses of `<` and `<=`;
of two values of one ordered kind exactly one of `<`, `==` and `>` holds, and `<=` is `<` or `==`;
`<` and `<=` are transitive; and of any other two values none of the four holds. The order is by
value for numbers and by code points for strings, and false comes before true. -/
theorem order_consistent :
    (∀ a b : Json, less.holds a b = greater.holds b a ∧ lessEq.holds a b = greaterEq.holds b a) ∧
      (∀ a b : Json, Ordered a b →
        (∃! op, op ∈ [less, .eq, greater] ∧ op.holds a b = true) ∧
        (lessEq.holds a b = true ↔ less.holds a b = true ∨ BinaryOp.eq.holds a b = true)) ∧
      (∀ a b c : Json,
        (less.holds a b = true → less.holds b c = true → less.holds a c = true) ∧
        (lessEq.holds a b = true → lessEq.holds b c = true → lessEq.holds a c = true)) ∧
      (∀ a b : Json, ¬ Ordered a b → ∀ op ∈ BinaryOp.orderings, op.holds a b = false) ∧
      (∀ m n : Number, less.holds (number m) (number n) = true ↔ m.value < n.value) ∧
      (∀ s t : String, less.holds (string s) (string t) = true ↔ s.toList < t.toList) ∧
      ∀ p q : Bool, less.holds (bool p) (bool q) = true ↔ p = false ∧ q = true := by
  refine ⟨holds_flip, fun a b kind => ⟨kind.one, kind.lessEq_iff⟩, fun a b c => ⟨?_, ?_⟩,
    fun a b unordered op ordering => holds_eq_false ordering unordered, fun m n => ?_,
    fun s t => ?_, fun p q => ?_⟩
  · intro first second
    have kinds := ordered_of_holds (by decide) first
    exact (kinds.trans (ordered_of_holds (by decide) second)).1 first second
  · intro first second
    have kinds := ordered_of_holds (by decide) first
    exact (kinds.trans (ordered_of_holds (by decide) second)).2 first second
  · exact (number_compares m n).holds_iff less
  · exact ((string_compares s t).holds_iff less).trans String.lt_iff
  · exact ((bool_compares p q).holds_iff less).trans Bool.lt_iff

/-- An integer below zero, a fraction and an integer without a sign are in order, and a string has
none beside a number. -/
theorem order_consistent_mixed :
    less.holds (number (.int (-1))) (number (.float ⟨false, 1022 * twoPow 52, by decide⟩)) = true ∧
      less.holds (number (.float ⟨false, 1022 * twoPow 52, by decide⟩))
        (number (.int 18446744073709551615)) = true ∧
      less.holds (number (.int (-1))) (number (.int 18446744073709551615)) = true ∧
      (∃! op, op ∈ [less, .eq, greater] ∧
        op.holds (number (.int (-1))) (number (.int 18446744073709551615)) = true) ∧
      ∀ op ∈ BinaryOp.orderings, op.holds (string "a") (nat 1) = false := by
  have first : less.holds (number (.int (-1)))
      (number (.float ⟨false, 1022 * twoPow 52, by decide⟩)) = true := by decide +kernel
  have second : less.holds (number (.float ⟨false, 1022 * twoPow 52, by decide⟩))
      (number (.int 18446744073709551615)) = true := by decide +kernel
  obtain ⟨-, one, trans, none, -⟩ := order_consistent
  exact ⟨first, second, (trans _ _ _).1 first second, (one _ _ (.numbers _ _)).1,
    none _ _ fun kind => nomatch kind⟩

end Json

end QueryTemplate
