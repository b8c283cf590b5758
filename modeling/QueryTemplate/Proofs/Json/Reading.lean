import QueryTemplate.Proofs.Json.Numerals
import QueryTemplate.Proofs.Json.Quoted

set_option autoImplicit false

/- How the reader of documents goes through a text without white space, one rule for each shape of a
document. -/

namespace QueryTemplate.Json.Document

/-- A document stands at the front of a text. -/
def Reads (chars : List Char) (document : Document) (rest : List Char) : Prop :=
  ∃ less, read chars = some (document, ⟨rest, less⟩)

/-- Items and the closing bracket stand at the front of a text. -/
def ReadsItems (chars : List Char) (items : List Document) (rest : List Char) : Prop :=
  ∃ less, readItems chars = some (items, ⟨rest, less⟩)

/-- Members and the closing brace stand at the front of a text. -/
def ReadsMembers (chars : List Char) (members : List (Option String × Document))
    (rest : List Char) : Prop :=
  ∃ less, readMembers chars = some (members, ⟨rest, less⟩)

theorem skipSpace_cons {c : Char} (filled : isSpace c = false) (rest : List Char) :
    skipSpace (c :: rest) = c :: rest :=
  List.dropWhile_cons_of_neg (by rw [filled]; decide)

variable {chars rest after : List Char}

theorem reads_null : Reads ('n' :: 'u' :: 'l' :: 'l' :: rest) null rest := by
  have spaced := skipSpace_cons (show isSpace 'n' = false from rfl) ('u' :: 'l' :: 'l' :: rest)
  refine ⟨by simp only [List.length_cons]; omega, ?_⟩
  rw [read]
  split
  next shape =>
    cases spaced.symm.trans shape
    rfl
  all_goals simp_all

theorem reads_true : Reads ('t' :: 'r' :: 'u' :: 'e' :: rest) (bool true) rest := by
  have spaced := skipSpace_cons (show isSpace 't' = false from rfl) ('r' :: 'u' :: 'e' :: rest)
  refine ⟨by simp only [List.length_cons]; omega, ?_⟩
  rw [read]
  split
  case h_2 shape =>
    cases spaced.symm.trans shape
    rfl
  all_goals simp_all

theorem reads_false : Reads ('f' :: 'a' :: 'l' :: 's' :: 'e' :: rest) (bool false) rest := by
  have spaced :=
    skipSpace_cons (show isSpace 'f' = false from rfl) ('a' :: 'l' :: 's' :: 'e' :: rest)
  refine ⟨by simp only [List.length_cons]; omega, ?_⟩
  rw [read]
  split
  case h_3 shape =>
    cases spaced.symm.trans shape
    rfl
  all_goals simp_all

theorem reads_string (text : String) : Reads (printString text ++ rest) (string (some text)) rest := by
  obtain ⟨pieces, spelled, scanned, named⟩ := Quoted.scan_printString text rest
  have spaced := skipSpace_cons (show isSpace '"' = false from rfl)
    (text.toList.flatMap Quoted.encodeChar ++ '"' :: rest)
  have shorter := Quoted.scan_length scanned
  rw [spelled]
  refine ⟨by simp only [List.length_cons]; omega, ?_⟩
  rw [read]
  split
  case h_4 shape =>
    cases spaced.symm.trans shape
    split
    · simp_all
    · simp_all
  all_goals simp_all

/-- A number begins with a sign or a digit. -/
theorem spell_head {text : NumberText} (formed : text.Formed) :
    ∃ c tail, text.spell = c :: tail ∧ (c = '-' ∨ c.isDigit = true) := by
  obtain ⟨c, digits, spelled, -⟩ := formed.present
  cases sign : text.negative with
  | true => exact ⟨'-', _, by rw [NumberText.spell, sign]; rfl, Or.inl rfl⟩
  | false =>
      refine ⟨c, _, by rw [NumberText.spell, sign, spelled]; rfl, Or.inr ?_⟩
      exact formed.whole c (by rw [spelled]; exact List.mem_cons_self)

theorem reads_number {text : NumberText} (formed : text.Formed) (closed : NumberText.Closed rest) :
    Reads (text.spell ++ rest) (number text.toNumber?) rest := by
  have found := NumberText.read_spelled formed closed
  have shorter := NumberText.read_length found
  obtain ⟨c, tail, begun, first⟩ := spell_head formed
  have filled : isSpace c = false := by
    rcases first with rfl | digit
    · rfl
    · simp only [isSpace, Bool.or_eq_false_iff, beq_eq_false_iff_ne]
      refine ⟨⟨⟨?_, ?_⟩, ?_⟩, ?_⟩ <;> rintro rfl <;> cases digit
  have spaced : skipSpace (text.spell ++ rest) = c :: (tail ++ rest) := by
    rw [begun]
    exact skipSpace_cons filled _
  have other {d : Char} {others : List Char} (shape : skipSpace (text.spell ++ rest) = d :: others) :
      d = '-' ∨ d.isDigit = true := by
    obtain ⟨rfl, -⟩ := List.cons.inj (spaced.symm.trans shape)
    exact first
  refine ⟨shorter, ?_⟩
  rw [read]
  split
  case h_7 =>
    have whole : skipSpace (text.spell ++ rest) = text.spell ++ rest := by rw [spaced, begun]; rfl
    split
    next missed =>
      rw [whole, found] at missed
      cases missed
    next hit =>
      rw [whole, found] at hit
      cases hit
      rfl
  all_goals
    next shape => exact absurd (other shape) (by decide)

theorem reads_array_nil : Reads ('[' :: ']' :: rest) (array []) rest := by
  have spaced := skipSpace_cons (show isSpace '[' = false from rfl) (']' :: rest)
  have skipped := skipSpace_cons (show isSpace ']' = false from rfl) rest
  refine ⟨by simp only [List.length_cons]; omega, ?_⟩
  rw [read]
  split
  case h_5 shape =>
    cases spaced.symm.trans shape
    split
    · simp_all
    · simp_all
  all_goals simp_all

theorem reads_array {items : List Document} (open' : ∀ after, skipSpace chars ≠ ']' :: after)
    (inner : ReadsItems chars items rest) : Reads ('[' :: chars) (array items) rest := by
  obtain ⟨less, inner⟩ := inner
  have spaced := skipSpace_cons (show isSpace '[' = false from rfl) chars
  refine ⟨by simp only [List.length_cons]; omega, ?_⟩
  rw [read]
  split
  case h_5 shape =>
    cases spaced.symm.trans shape
    split
    next closed => exact absurd closed (open' _)
    next => rw [inner]
  all_goals simp_all

theorem reads_object_nil : Reads ('{' :: '}' :: rest) (object []) rest := by
  have spaced := skipSpace_cons (show isSpace '{' = false from rfl) ('}' :: rest)
  have skipped := skipSpace_cons (show isSpace '}' = false from rfl) rest
  refine ⟨by simp only [List.length_cons]; omega, ?_⟩
  rw [read]
  split
  case h_6 shape =>
    cases spaced.symm.trans shape
    split
    · simp_all
    · simp_all
  all_goals simp_all

theorem reads_object {members : List (Option String × Document)}
    (open' : ∀ after, skipSpace chars ≠ '}' :: after)
    (inner : ReadsMembers chars members rest) : Reads ('{' :: chars) (object members) rest := by
  obtain ⟨less, inner⟩ := inner
  have spaced := skipSpace_cons (show isSpace '{' = false from rfl) chars
  refine ⟨by simp only [List.length_cons]; omega, ?_⟩
  rw [read]
  split
  case h_6 shape =>
    cases spaced.symm.trans shape
    split
    next closed => exact absurd closed (open' _)
    next => rw [inner]
  all_goals simp_all

theorem readsItems_last {item : Document} (head : Reads chars item (']' :: rest)) :
    ReadsItems chars [item] rest := by
  obtain ⟨less, head⟩ := head
  have skipped := skipSpace_cons (show isSpace ']' = false from rfl) rest
  refine ⟨by simp only [List.length_cons] at less; omega, ?_⟩
  rw [readItems, head]
  simp only
  split
  all_goals simp_all

theorem readsItems_cons {item : Document} {items : List Document}
    (head : Reads chars item (',' :: after)) (tail : ReadsItems after items rest) :
    ReadsItems chars (item :: items) rest := by
  obtain ⟨less, head⟩ := head
  obtain ⟨fewer, tail⟩ := tail
  have skipped := skipSpace_cons (show isSpace ',' = false from rfl) after
  refine ⟨by simp only [List.length_cons] at less; omega, ?_⟩
  rw [readItems, head]
  simp only
  split
  next shape => simp_all
  next shape =>
    cases skipped.symm.trans shape
    rw [tail]
  next => simp_all

theorem readsMembers_iff {members : List (Option String × Document)} :
    ReadsMembers chars members rest ↔
      (readMembers chars).map (fun found => (found.1, found.2.1)) = some (members, rest) := by
  constructor
  · rintro ⟨less, found⟩
    rw [found]
    rfl
  · intro found
    obtain ⟨⟨members, rest, less⟩, hit, same⟩ := Option.map_eq_some_iff.mp found
    cases same
    exact ⟨less, hit⟩

/-- A member in front of a text: what follows its value decides whether it is the last one. -/
theorem readMembers_member {name : String} {value : Document}
    (head : Reads after value rest) :
    (readMembers (printString name ++ ':' :: after)).map (fun found => (found.1, found.2.1)) =
      match skipSpace rest with
      | '}' :: last => some ([(some name, value)], last)
      | ',' :: next => (readMembers next).map fun found => ((some name, value) :: found.1, found.2.1)
      | _ => none := by
  obtain ⟨less, head⟩ := head
  obtain ⟨pieces, spelled, scanned, named⟩ := Quoted.scan_printString name (':' :: after)
  have spaced := skipSpace_cons (show isSpace '"' = false from rfl)
    (name.toList.flatMap Quoted.encodeChar ++ '"' :: ':' :: after)
  have separated := skipSpace_cons (show isSpace ':' = false from rfl) after
  rw [spelled, readMembers]
  split
  next shape =>
    cases spaced.symm.trans shape
    split
    next missed => cases scanned.symm.trans missed
    next found =>
      cases scanned.symm.trans found
      split
      next colon =>
        cases separated.symm.trans colon
        rw [head, named]
        simp only
        split
        next closing => simp only [closing, Option.map_some]
        next comma =>
          simp only [comma]
          cases readMembers _ <;> rfl
        next open' neither =>
          split
          next closing => exact absurd closing (open' _)
          next comma => exact absurd comma (neither _)
          next => rfl
      next other => exact absurd separated (other _)
  next other => exact absurd spaced (other _)

theorem readsMembers_last {name : String} {value : Document}
    (head : Reads after value ('}' :: rest)) :
    ReadsMembers (printString name ++ ':' :: after) [(some name, value)] rest := by
  apply readsMembers_iff.mpr
  rw [readMembers_member head]
  simp only [skipSpace_cons (show isSpace '}' = false from rfl)]

theorem readsMembers_cons {name : String} {value : Document}
    {members : List (Option String × Document)} {next : List Char}
    (head : Reads after value (',' :: next)) (tail : ReadsMembers next members rest) :
    ReadsMembers (printString name ++ ':' :: after) ((some name, value) :: members) rest := by
  obtain ⟨fewer, tail⟩ := tail
  apply readsMembers_iff.mpr
  rw [readMembers_member head]
  simp only [skipSpace_cons (show isSpace ',' = false from rfl), tail, Option.map_some]

end QueryTemplate.Json.Document
