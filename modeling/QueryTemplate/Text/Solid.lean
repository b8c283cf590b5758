import QueryTemplate.Text.Basic

set_option autoImplicit false

/- Texts that a line can hold as they are: they do not break the line, and neither end of them is
trimmed off. -/

namespace QueryTemplate.Text

theorem trimStart_cons {c : Char} (filled : isBlank c = false) (rest : List Char) :
    trimStart (c :: rest) = c :: rest := by
  rw [trimStart, List.dropWhile_cons_of_neg (by simp [filled])]

/-- No line feed anywhere, and no white space at the ends. -/
structure Solid (chars : List Char) : Prop where
  starts : ∃ c rest, chars = c :: rest ∧ isBlank c = false
  ends : ∃ front c, chars = front ++ [c] ∧ isBlank c = false
  unbroken : '\n' ∉ chars

namespace Solid

variable {chars others : List Char}

/-- What stands between two solid texts need only keep the line together. -/
theorem around {middle : List Char} (first : Solid chars) (last : Solid others)
    (inner : '\n' ∉ middle) : Solid (chars ++ middle ++ others) := by
  obtain ⟨c, rest, rfl, filled⟩ := first.starts
  obtain ⟨front, d, rfl, closed⟩ := last.ends
  refine ⟨⟨c, _, rfl, filled⟩, ⟨c :: rest ++ middle ++ front, d, ?_, closed⟩, ?_⟩
  · rw [List.append_assoc _ front]
  · rw [List.mem_append, List.mem_append, not_or, not_or]
    exact ⟨⟨first.unbroken, inner⟩, last.unbroken⟩

theorem append (first : Solid chars) (last : Solid others) : Solid (chars ++ others) := by
  have joined := first.around last List.not_mem_nil
  rwa [List.append_nil] at joined

theorem singleton {c : Char} (filled : isBlank c = false) : Solid [c] := by
  refine ⟨⟨c, [], rfl, filled⟩, ⟨[], c, rfl, filled⟩, ?_⟩
  intro within
  rw [← List.mem_singleton.mp within] at filled
  exact absurd filled (by decide)

theorem cons {c : Char} (filled : isBlank c = false) (solid : Solid chars) : Solid (c :: chars) :=
  (singleton filled).append solid

/-- A text without white space. -/
theorem of_filled (present : chars ≠ []) (filled : ∀ c ∈ chars, isBlank c = false) :
    Solid chars := by
  induction chars with
  | nil => contradiction
  | cons c rest ih =>
      cases rest with
      | nil => exact singleton (filled c List.mem_cons_self)
      | cons d rest =>
          exact cons (filled c List.mem_cons_self)
            (ih (List.cons_ne_nil d rest) fun c within => filled c (List.mem_cons_of_mem _ within))

/-- A text that is known letter by letter. -/
theorem of_literal (literal : (!chars.isEmpty && chars.all fun c => !isBlank c) = true) :
    Solid chars := by
  rw [Bool.and_eq_true, List.all_eq_true] at literal
  apply of_filled
  · rintro rfl
    exact Bool.false_ne_true literal.1
  · intro c within
    exact (Bool.not_eq_true' _).mp (literal.2 c within)

theorem trim (solid : Solid chars) : Text.trim chars = chars := by
  obtain ⟨c, rest, begun, filled⟩ := solid.starts
  have start : trimStart chars = chars := by
    rw [begun, trimStart_cons filled]
  obtain ⟨front, d, ended, closed⟩ := solid.ends
  rw [Text.trim, start, trimEnd, ended, List.reverse_append]
  rw [List.reverse_singleton, List.singleton_append, List.dropWhile_cons_of_neg (by simp [closed]),
    List.reverse_cons, List.reverse_reverse]

end Solid

theorem lines_cons {c : Char} {rest line : List Char} {others : List (List Char)}
    (fed : c ≠ '\n') (returned : ¬ (c = '\r' ∧ rest.head? = some '\n'))
    (tail : lines rest = line :: others) : lines (c :: rest) = (c :: line) :: others := by
  rw [lines]
  · rw [tail]
  · exact fed
  · intro after same shape
    exact returned ⟨same, by rw [shape]; rfl⟩

/-- A line feed after a solid text ends a line that is the text. -/
theorem Solid.lines_append {chars : List Char} (solid : Solid chars) (rest : List Char) :
    lines (chars ++ '\n' :: rest) = chars :: lines rest := by
  obtain ⟨front, last, rfl, filled⟩ := solid.ends
  have unbroken := solid.unbroken
  clear solid
  rw [List.append_assoc]
  induction front with
  | nil =>
      refine lines_cons ?_ ?_ rfl
      · rintro rfl
        exact absurd filled (by decide)
      · rintro ⟨rfl, _⟩
        exact absurd filled (by decide)
  | cons c front ih =>
      simp only [List.cons_append, List.mem_cons, not_or] at unbroken
      refine lines_cons (Ne.symm unbroken.1) ?_ (ih unbroken.2)
      rintro ⟨-, next⟩
      cases front with
      | nil =>
          cases next
          exact absurd filled (by decide)
      | cons d front =>
          cases next
          exact unbroken.2 List.mem_cons_self

/-- The text of lines, each of which ends with a line feed. -/
def unlines (texts : List (List Char)) : List Char := texts.flatMap (· ++ ['\n'])

@[simp] theorem unlines_nil : unlines [] = [] := rfl

theorem unlines_cons (text : List Char) (texts : List (List Char)) :
    unlines (text :: texts) = text ++ '\n' :: unlines texts := by
  rw [unlines, List.flatMap_cons, List.append_assoc]
  rfl

theorem unlines_append (first second : List (List Char)) :
    unlines (first ++ second) = unlines first ++ unlines second := List.flatMap_append

theorem lines_unlines_append {texts : List (List Char)} (solid : ∀ text ∈ texts, Solid text)
    (rest : List Char) : lines (unlines texts ++ rest) = texts ++ lines rest := by
  induction texts with
  | nil => rfl
  | cons text texts ih =>
      obtain ⟨head, tail⟩ := List.forall_mem_cons.mp solid
      rw [unlines_cons, List.append_assoc, List.cons_append, head.lines_append, ih tail]
      rfl

end QueryTemplate.Text
