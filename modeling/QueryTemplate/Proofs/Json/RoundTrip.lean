import QueryTemplate.Proofs.Json.Reading
import QueryTemplate.Text.Solid

set_option autoImplicit false

/- A value that is printed is read as the same structure, with each number as its own text is read.
-/

namespace QueryTemplate.Json

mutual

/-- What the text of a value spells out. -/
def document : Json → Document
  | null => .null
  | bool value => .bool value
  | number value => .number value.reread?
  | string value => .string (some value)
  | array items => .array (documents items)
  | object members => .object (memberDocuments members)

def documents : List Json → List Document
  | [] => []
  | item :: items => item.document :: documents items

def memberDocuments : List (String × Json) → List (Option String × Document)
  | [] => []
  | (name, value) :: members => (some name, value.document) :: memberDocuments members

end

/-- The first character of a value is no white space and closes nothing. -/
theorem print_head (value : Json) :
    ∃ c tail, value.print = c :: tail ∧ Document.isSpace c = false ∧ c ≠ ']' := by
  match value with
  | null => exact ⟨'n', _, rfl, rfl, by decide⟩
  | bool true => exact ⟨'t', _, rfl, rfl, by decide⟩
  | bool false => exact ⟨'f', _, rfl, rfl, by decide⟩
  | string _ => exact ⟨'"', _, rfl, rfl, by decide⟩
  | array [] => exact ⟨'[', _, rfl, rfl, by decide⟩
  | array (_ :: _) => exact ⟨'[', _, rfl, rfl, by decide⟩
  | object [] => exact ⟨'{', _, rfl, rfl, by decide⟩
  | object ((_, _) :: _) => exact ⟨'{', _, rfl, rfl, by decide⟩
  | number value =>
      obtain ⟨c, tail, spelled, first⟩ := Document.spell_head value.formed_numeral
      rw [Number.spell_numeral] at spelled
      refine ⟨c, tail, spelled, ?_⟩
      rcases first with rfl | digit
      · exact ⟨rfl, by decide⟩
      · refine ⟨?_, fun same => by rw [same] at digit; cases digit⟩
        simp only [Document.isSpace, Bool.or_eq_false_iff, beq_eq_false_iff_ne]
        refine ⟨⟨⟨?_, ?_⟩, ?_⟩, ?_⟩ <;> rintro rfl <;> cases digit

theorem closed_printItems (items : List Json) (rest : List Char) :
    NumberText.Closed (printItems items ++ rest) := by
  intro c first
  cases items with
  | nil =>
      cases first
      decide
  | cons item items =>
      cases first
      decide

theorem closed_printMembers (members : List (String × Json)) (rest : List Char) :
    NumberText.Closed (printMembers members ++ rest) := by
  intro c first
  cases members with
  | nil =>
      cases first
      decide
  | cons member members =>
      cases first
      decide

mutual

theorem reads_print (value : Json) {rest : List Char} (closed : NumberText.Closed rest) :
    Document.Reads (value.print ++ rest) value.document rest := by
  match value with
  | null => exact Document.reads_null
  | bool true => exact Document.reads_true
  | bool false => exact Document.reads_false
  | number value =>
      rw [print, ← value.spell_numeral]
      exact Document.reads_number value.formed_numeral closed
  | string value => exact Document.reads_string value
  | array [] => exact Document.reads_array_nil
  | array (item :: items) =>
      obtain ⟨c, tail, spelled, filled, other⟩ := item.print_head
      change Document.Reads ('[' :: (item.print ++ printItems items ++ rest)) _ rest
      refine Document.reads_array (fun after closing => ?_) (readsItems_print item items rest)
      rw [spelled, List.cons_append, List.cons_append, Document.skipSpace_cons filled] at closing
      exact other (List.cons.inj closing).1
  | object [] => exact Document.reads_object_nil
  | object ((name, value) :: members) =>
      refine Document.reads_object (fun after closing => ?_)
        (readsMembers_print name value members rest)
      cases closing
termination_by sizeOf value

theorem readsItems_print (item : Json) (items : List Json) (rest : List Char) :
    Document.ReadsItems (item.print ++ printItems items ++ rest)
      (item.document :: documents items) rest := by
  have head := reads_print item (closed_printItems items rest)
  rw [List.append_assoc]
  match items with
  | [] => exact Document.readsItems_last head
  | next :: others => exact Document.readsItems_cons head (readsItems_print next others rest)
termination_by sizeOf (item :: items)

theorem readsMembers_print (name : String) (value : Json) (members : List (String × Json))
    (rest : List Char) :
    Document.ReadsMembers (printString name ++ ':' :: value.print ++ printMembers members ++ rest)
      ((some name, value.document) :: memberDocuments members) rest := by
  have head := reads_print value (closed_printMembers members rest)
  rw [List.append_assoc, List.append_assoc, List.cons_append]
  match members with
  | [] => exact Document.readsMembers_last head
  | (next, other) :: others =>
      exact Document.readsMembers_cons head (readsMembers_print next other others rest)
termination_by sizeOf ((name, value) :: members)

end

theorem documentOfText?_print (value : Json) :
    Document.ofText? value.print = some value.document := by
  have found := reads_print value NumberText.closed_nil
  rw [List.append_nil] at found
  obtain ⟨less, found⟩ := found
  simp only [Document.ofText?, found]
  rfl

/-- A printed value is read as what its text spells out denotes. -/
theorem ofText?_print (value : Json) :
    ofText? value.print = value.document.toJson? maxDepth := by
  rw [ofText?, documentOfText?_print]
  rfl

end QueryTemplate.Json
