import QueryTemplate.Json.Document
import QueryTemplate.Json.Printer

set_option autoImplicit false

/- Strings in JSON notation read back as they were, whatever characters they hold. -/

namespace QueryTemplate.Json

namespace Quoted

/-- How the escape of a character, or the character itself, is read. -/
def piece (c : Char) : Piece :=
  if c.toNat < 32 ∧ c ≠ '\x08' ∧ c ≠ '\t' ∧ c ≠ '\n' ∧ c ≠ '\x0c' ∧ c ≠ '\r' then .unit c.toNat
  else .char c

theorem hexUnit?_control (code : Nat) (control : code < 32) :
    hexUnit? '0' '0' (hexDigit (code / 16)) (hexDigit (code % 16)) = some code := by
  have every : ∀ n : Fin 32,
      hexUnit? '0' '0' (hexDigit (n.val / 16)) (hexDigit (n.val % 16)) = some n.val := by
    decide
  exact every ⟨code, control⟩

theorem scan_unit {a b c d : Char} {code : Nat} (digits : hexUnit? a b c d = some code)
    (rest : List Char) :
    scan ('\\' :: 'u' :: a :: b :: c :: d :: rest) =
      (scan rest).map fun read => (.unit code :: read.1, read.2) := by
  simp only [scan, digits]
  cases scan rest <;> rfl

theorem scan_escape {c image : Char} (escaped : escapedChar? c = some image) (rest : List Char) :
    scan ('\\' :: c :: rest) = (scan rest).map fun read => (.char image :: read.1, read.2) := by
  have other : c ≠ 'u' := by
    intro same
    rw [same] at escaped
    exact absurd escaped (by simp [escapedChar?])
  rw [scan]
  · simp only [escaped]
    cases scan rest <;> rfl
  · intro _ _ _ _ _ same _
    exact other same

theorem scan_plain {c : Char} (quote : c ≠ '"') (backslash : c ≠ '\\') (printed : ¬ c.toNat < 32)
    (rest : List Char) :
    scan (c :: rest) = (scan rest).map fun read => (.char c :: read.1, read.2) := by
  rw [scan]
  · simp only [backslash, printed, or_self, ↓reduceIte]
    cases scan rest <;> rfl
  · exact quote
  · intro _ _ _ _ _ same _
    exact backslash same
  · intro _ _ same _
    exact backslash same

theorem piece_of_plain {c : Char} (printed : ¬ c.toNat < 32) : piece c = .char c := by
  simp only [piece, printed, false_and, ↓reduceIte]

theorem scan_encodeChar (c : Char) (rest : List Char) :
    scan (encodeChar c ++ rest) = (scan rest).map fun read => (piece c :: read.1, read.2) := by
  unfold encodeChar
  repeat' split
  iterate 7 (next => subst_vars; exact scan_escape rfl rest)
  next control =>
    have unit : piece c = .unit c.toNat := by
      simp only [piece, *, ne_eq, not_false_eq_true, and_self, ↓reduceIte]
    rw [unit]
    exact scan_unit (hexUnit?_control c.toNat control) rest
  next quote backslash _ _ _ _ _ printed =>
    rw [piece_of_plain printed]
    exact scan_plain quote backslash printed rest

theorem scan_encoded (chars rest : List Char) :
    scan (chars.flatMap encodeChar ++ '"' :: rest) = some (chars.map piece, rest) := by
  induction chars with
  | nil => rfl
  | cons c chars ih =>
      rw [List.flatMap_cons, List.append_assoc, scan_encodeChar, ih]
      rfl

/-- A code unit that is no surrogate stands for itself, whatever follows. -/
theorem assemble_unit {code : Nat} (leading : isLeading code = false)
    (trailing : isTrailing code = false) (rest : List Piece) :
    assemble (.unit code :: rest) = (assemble rest).map (Char.ofNat code :: ·) := by
  match rest with
  | [] => simp only [assemble, leading, trailing, Bool.or_self, Bool.false_eq_true, ↓reduceIte]
  | .char _ :: _ =>
      simp only [assemble, leading, trailing, Bool.or_self, Bool.false_eq_true, ↓reduceIte]
  | .unit _ :: _ => rw [assemble]; simp only [leading, trailing, Bool.false_eq_true, ↓reduceIte]

theorem assemble_piece (c : Char) (rest : List Piece) :
    assemble (piece c :: rest) = (assemble rest).map (c :: ·) := by
  unfold piece
  split
  next control =>
    have leading : isLeading c.toNat = false := by
      simp only [isLeading, Bool.and_eq_false_iff, decide_eq_false_iff_not]
      omega
    have trailing : isTrailing c.toNat = false := by
      simp only [isTrailing, Bool.and_eq_false_iff, decide_eq_false_iff_not]
      omega
    rw [assemble_unit leading trailing, Char.ofNat_toNat]
  next => rfl

theorem assemble_pieces (chars : List Char) : assemble (chars.map piece) = some chars := by
  induction chars with
  | nil => rfl
  | cons c chars ih =>
      rw [List.map_cons, assemble_piece, ih]
      rfl

/-- A reader of a string finds its text and what stands after it. -/
theorem scan_printString (text : String) (rest : List Char) :
    ∃ pieces, printString text ++ rest = '"' :: (text.toList.flatMap encodeChar ++ '"' :: rest) ∧
      scan (text.toList.flatMap encodeChar ++ '"' :: rest) = some (pieces, rest) ∧
      Document.textOf pieces = some text := by
  refine ⟨text.toList.map piece, ?_, scan_encoded text.toList rest, ?_⟩
  · simp only [printString, encode, List.cons_append, List.append_assoc, List.nil_append]
  · simp only [Document.textOf, assemble_pieces, Option.map_some, String.ofList_toList]

end Quoted

end QueryTemplate.Json
