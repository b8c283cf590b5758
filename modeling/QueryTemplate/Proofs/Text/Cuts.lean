import Mathlib.Data.List.TakeWhile
import QueryTemplate.Text.Solid

set_option autoImplicit false

/- Texts of lines that are cut off or go on. A cut falls into one of the lines and leaves those
before it whole; what is added after the last line feed comes as further lines. -/

namespace QueryTemplate.Text

theorem trim_eq_nil_iff {chars : List Char} : trim chars = [] ↔ ∀ c ∈ chars, isBlank c = true := by
  have ends (others : List Char) : trimEnd others = [] ↔ ∀ c ∈ others, isBlank c = true := by
    simp only [trimEnd, List.reverse_eq_nil_iff, List.dropWhile_eq_nil_iff, List.mem_reverse]
  rw [trim, ends]
  constructor
  · intro blank
    -- what is left by the trimming of the start would begin with a character that is not blank
    refine List.dropWhile_eq_nil_iff.mp (Classical.byContradiction fun left => ?_)
    have first := List.head_dropWhile_not isBlank left
    rw [blank _ (List.head_mem left)] at first
    cases first
  · intro blank c within
    exact blank c ((List.dropWhile_suffix isBlank).subset within)

theorem trimEnd_prefix (chars : List Char) : trimEnd chars <+: chars := by
  have back := List.reverse_prefix.mpr (List.dropWhile_suffix isBlank (l := chars.reverse))
  rwa [List.reverse_reverse] at back

/-- The beginning of a solid text is trimmed at its end only. -/
theorem Solid.trim_prefix {part rest : List Char} (solid : Solid (part ++ rest)) :
    Text.trim part <+: part := by
  cases part with
  | nil => exact List.prefix_rfl
  | cons c part =>
      obtain ⟨d, others, same, filled⟩ := solid.starts
      obtain ⟨rfl, -⟩ := List.cons.inj same
      rw [Text.trim, trimStart_cons filled]
      exact trimEnd_prefix (c :: part)

/-- A text without a line feed is one line, if it is not empty. -/
theorem lines_of_unbroken {chars : List Char} (unbroken : '\n' ∉ chars) :
    lines chars = if chars = [] then [] else [chars] := by
  induction chars with
  | nil => rfl
  | cons c rest ih =>
      simp only [List.mem_cons, not_or] at unbroken
      have tail := ih unbroken.2
      rw [if_neg (List.cons_ne_nil c rest)]
      cases rest with
      | nil =>
          rw [lines]
          · rfl
          · exact Ne.symm unbroken.1
          · rintro _ - more
            cases more
      | cons d rest =>
          rw [if_neg (List.cons_ne_nil d rest)] at tail
          refine lines_cons (Ne.symm unbroken.1) ?_ tail
          rintro ⟨-, next⟩
          cases next
          exact unbroken.2 List.mem_cons_self

/-- What is not white space stands in some line. -/
theorem exists_mem_lines {chars : List Char} {c : Char} (within : c ∈ chars)
    (filled : isBlank c = false) : ∃ line ∈ lines chars, c ∈ line := by
  have fed : c ≠ '\n' := by rintro rfl; exact absurd filled (by decide)
  have returned : c ≠ '\r' := by rintro rfl; exact absurd filled (by decide)
  fun_induction lines chars with
  | case1 => cases within
  | case2 rest ih =>
      obtain ⟨line, listed, inside⟩ := ih ((List.mem_cons.mp within).resolve_left fed)
      exact ⟨line, List.mem_cons_of_mem _ listed, inside⟩
  | case3 rest ih =>
      have later := ((List.mem_cons.mp within).resolve_left returned)
      obtain ⟨line, listed, inside⟩ := ih ((List.mem_cons.mp later).resolve_left fed)
      exact ⟨line, List.mem_cons_of_mem _ listed, inside⟩
  | case4 d rest _ _ empty ih =>
      rcases List.mem_cons.mp within with rfl | later
      · exact ⟨[c], List.mem_cons_self, List.mem_cons_self⟩
      · obtain ⟨line, listed, -⟩ := ih later
        rw [empty] at listed
        cases listed
  | case5 d rest _ _ first others split ih =>
      rcases List.mem_cons.mp within with rfl | later
      · exact ⟨c :: first, List.mem_cons_self, List.mem_cons_self⟩
      · obtain ⟨line, listed, inside⟩ := ih later
        rw [split] at listed
        rcases List.mem_cons.mp listed with rfl | listed
        · exact ⟨d :: line, List.mem_cons_self, List.mem_cons_of_mem d inside⟩
        · exact ⟨line, List.mem_cons_of_mem _ listed, inside⟩

/-- A cut falls into one of the lines, the line feed at its end included. -/
theorem cut_unlines {texts : List (List Char)} {front rest : List Char}
    (cut : unlines texts = front ++ rest) (cutOff : rest ≠ []) :
    ∃ whole part remainder others, texts = whole ++ (part ++ remainder) :: others ∧
      front = unlines whole ++ part ∧ rest = remainder ++ '\n' :: unlines others := by
  induction texts generalizing front with
  | nil =>
      have empty := (List.append_eq_nil_iff.mp cut.symm).2
      exact absurd empty cutOff
  | cons text texts ih =>
      rw [unlines_cons] at cut
      rcases List.append_eq_append_iff.mp cut with ⟨middle, front_eq, middle_eq⟩ | ⟨middle, rfl, rfl⟩
      · cases middle with
        | nil =>
            rw [List.append_nil] at front_eq
            rw [List.nil_append] at middle_eq
            refine ⟨[], text, [], texts, ?_, front_eq, middle_eq.symm⟩
            rw [List.append_nil]
            rfl
        | cons d middle =>
            rw [List.cons_append, List.cons.injEq] at middle_eq
            obtain ⟨rfl, later⟩ := middle_eq
            obtain ⟨whole, part, remainder, others, rfl, rfl, rfl⟩ := ih later
            refine ⟨text :: whole, part, remainder, others, rfl, ?_, rfl⟩
            rw [front_eq, unlines_cons, List.append_assoc]
            rfl
      · exact ⟨[], front, middle, texts, rfl, rfl, rfl⟩

end QueryTemplate.Text
