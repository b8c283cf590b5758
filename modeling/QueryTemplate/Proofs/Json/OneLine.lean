import QueryTemplate.Proofs.Json.Numerals
import QueryTemplate.Text.Solid

set_option autoImplicit false

/- Printed values fit into one line: line breaks in strings are escaped, and neither end of a value
is white space. -/

namespace QueryTemplate

open Text (Solid isBlank)

namespace NumberText

theorem Formed.filled {text : NumberText} (formed : text.Formed) :
    ∀ c ∈ text.spell, isBlank c = false := by
  intro c within
  have digits {chars : List Char} (all : Decimal.AllDigits chars) (member : c ∈ chars) :
      isBlank c = false := Decimal.isBlank_digit (all c member)
  simp only [spell, List.mem_append] at within
  rcases within with sign | whole | fraction | exponent
  · split at sign
    · rw [List.mem_singleton.mp sign]
      rfl
    · cases sign
  · exact digits formed.whole whole
  · unfold fractionText at fraction
    split at fraction
    · cases fraction
    · rcases List.mem_cons.mp fraction with rfl | digit
      · rfl
      · exact digits formed.fraction digit
  · unfold exponentText at exponent
    split at exponent
    next => cases exponent
    next negative others spelled =>
      rcases List.mem_cons.mp exponent with rfl | signed
      · rfl
      · rcases List.mem_cons.mp signed with rfl | digit
        · cases negative <;> rfl
        · exact digits (formed.exponent negative others spelled).1 digit

theorem Formed.solid {text : NumberText} (formed : text.Formed) : Solid text.spell := by
  refine Solid.of_filled (fun empty => ?_) formed.filled
  obtain ⟨c, digits, spelled, -⟩ := formed.present
  simp only [spell, spelled, List.append_eq_nil_iff] at empty
  cases empty.2.1

end NumberText

theorem Number.solid_print (number : Number) : Solid number.print := by
  rw [← number.spell_numeral]
  exact number.formed_numeral.solid

namespace Json

theorem Quoted.unbroken_encodeChar (c : Char) : '\n' ∉ encodeChar c := by
  have controls : ∀ n : Fin 32,
      '\n' ∉ ['\\', 'u', '0', '0', hexDigit (n.val / 16), hexDigit (n.val % 16)] := by decide
  unfold encodeChar
  repeat' split
  iterate 7 (next => decide)
  next control => exact controls ⟨c.toNat, control⟩
  next fed _ _ _ =>
    intro within
    exact fed (List.mem_singleton.mp within).symm

theorem solid_printString (text : String) : Solid (printString text) := by
  have quote : Solid ['"'] := Solid.singleton rfl
  apply quote.around quote
  intro within
  obtain ⟨c, _, broken⟩ := List.mem_flatMap.mp within
  exact Quoted.unbroken_encodeChar c broken

mutual

theorem solid_print (value : Json) : Solid value.print := by
  match value with
  | null => exact Solid.of_literal (by decide)
  | bool true => exact Solid.of_literal (by decide)
  | bool false => exact Solid.of_literal (by decide)
  | number value => exact value.solid_print
  | string value => exact solid_printString value
  | array [] => exact Solid.of_literal (by decide)
  | array (item :: items) =>
      exact Solid.cons rfl ((solid_print item).append (solid_printItems items))
  | object [] => exact Solid.of_literal (by decide)
  | object ((name, value) :: members) =>
      exact Solid.cons rfl (((solid_printString name).append (Solid.cons rfl (solid_print value))).append
        (solid_printMembers members))

theorem solid_printItems (items : List Json) : Solid (printItems items) := by
  match items with
  | [] => exact Solid.singleton rfl
  | item :: items => exact Solid.cons rfl ((solid_print item).append (solid_printItems items))

theorem solid_printMembers (members : List (String × Json)) : Solid (printMembers members) := by
  match members with
  | [] => exact Solid.singleton rfl
  | (name, value) :: members =>
      exact Solid.cons rfl (((solid_printString name).append (Solid.cons rfl (solid_print value))).append
        (solid_printMembers members))

end

end Json

end QueryTemplate
