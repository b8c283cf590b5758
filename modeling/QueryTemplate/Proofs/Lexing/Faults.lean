import QueryTemplate.Proofs.Lexing.Pieces

set_option autoImplicit false

/- What the lexer has against a source: characters that begin no token, or an opener without its
end. Either stands in the source at the place that the error tells. -/

namespace QueryTemplate.Lexer

/-- Characters of a text that begins at a place, and the span of them. -/
def Stands (place : Nat) (chars : List Char) (span : Span) (slice : List Char) : Prop :=
  ∃ front back, chars = front ++ slice ++ back ∧ span.start = place + Text.byteLength front ∧
    span.stop = span.start + Text.byteLength slice

/-- An error about characters of a text that begins at a place. -/
inductive Fault (place : Nat) (chars : List Char) : ParseError → Prop
  | unreadable {slice : List Char} {span : Span} (present : slice ≠ [])
      (stands : Stands place chars span slice) :
      Fault place chars (.unreadable (String.ofList slice) span)
  | unterminated (region : Region) {opener : List Char} {span : Span} (present : opener ≠ [])
      (stands : Stands place chars span opener) : Fault place chars (.unterminated region span)

theorem Stands.behind {place : Nat} {chars slice : List Char} {span : Span} (before : List Char)
    (stands : Stands (place + Text.byteLength before) chars span slice) :
    Stands place (before ++ chars) span slice := by
  obtain ⟨front, back, rfl, start, stop⟩ := stands
  refine ⟨before ++ front, back, by simp only [List.append_assoc], ?_, stop⟩
  rw [start, Text.byteLength_append, Nat.add_assoc]

namespace Fault

variable {place : Nat} {chars : List Char} {error : ParseError}

theorem behind (before : List Char)
    (fault : Fault (place + Text.byteLength before) chars error) :
    Fault place (before ++ chars) error := by
  cases fault with
  | unreadable present stands => exact .unreadable present (stands.behind before)
  | unterminated region present stands => exact .unterminated region present (stands.behind before)

/-- What is wrong after some characters and a number of bytes is wrong from their start on. -/
theorem later {before : List Char} {stop : Nat} (fault : Fault stop chars error)
    (wide : stop = place + Text.byteLength before) : Fault place (before ++ chars) error := by
  subst wide
  exact fault.behind before

theorem opener (region : Region) (first second : Char) (rest : List Char) {span : Span}
    (start : span.start = place) (stop : span.stop = place + Text.byteLength [first, second]) :
    Fault place (first :: second :: rest) (.unterminated region span) :=
  .unterminated region (List.cons_ne_nil first [second])
    ⟨[], rest, rfl, start, by rw [stop, start]⟩

end Fault

/-- A region that is not read has no end, or holds characters that begin no token. -/
theorem FailsRegion.fault {region : Region} {opener : Span} {place : Nat} {chars : List Char}
    {error : ParseError} (failed : FailsRegion region opener place chars error) :
    error = .unterminated region opener ∨ Fault place chars error := by
  induction failed with
  | ended place => exact Or.inl rfl
  | @gap place first chars error gap _ ih =>
      refine ih.imp id fun fault => ?_
      have wide : place + 1 = place + Text.byteLength [first] := by
        simp [Text.byteLength_cons, utf8Size_isGap gap]
      exact fault.later wide
  | @unreadable place first chars count scans =>
      refine Or.inr (.unreadable (List.cons_ne_nil _ _) ⟨[], chars.drop count, ?_, rfl, rfl⟩)
      simp
  | @token place first chars token count error scans _ ih =>
      refine ih.imp id fun fault => ?_
      have whole : first :: chars = first :: chars.take count ++ chars.drop count := by simp
      rw [whole]
      exact fault.later rfl

namespace Fault

variable {place : Nat} {chars : List Char} {error : ParseError} {opener closer : Mark}

/-- An opener, and a region after it that is not read. -/
theorem region {region : Region} (delimits : Delimits opener closer)
    (failed : scanRegion region ⟨place, place + 2⟩ (place + 2) chars = .error error) :
    Fault place (opener.spelling ++ chars) error := by
  have wide : Text.byteLength opener.spelling = 2 := by cases delimits <;> rfl
  rcases (failsRegion_of_eq_error failed).fault with rfl | fault
  · cases delimits with
    | output => exact .opener region _ _ chars rfl rfl
    | tag => exact .opener region _ _ chars rfl rfl
  · exact fault.later (by rw [wide])

/-- What is wrong after a region that is read. -/
theorem code {region : Region} (delimits : Delimits opener closer)
    (closes : region.closer? = some closer) {span : Span} {scanned : Scanned chars}
    (read : scanRegion region span (place + 2) chars = .ok scanned)
    (fault : Fault scanned.stop scanned.rest error) :
    Fault place (opener.spelling ++ chars) error := by
  obtain ⟨piece, -, whole, stop, -⟩ := code_of_scanRegion delimits closes read
  rw [whole]
  exact fault.later stop

theorem comment {body : List Char}
    (fault : Fault (place + 2 + Text.byteLength (body ++ ['#', '}'])) chars error) :
    Fault place ('{' :: '#' :: (body ++ '#' :: '}' :: chars)) error := by
  have whole : '{' :: '#' :: (body ++ '#' :: '}' :: chars) =
      '{' :: '#' :: (body ++ ['#', '}']) ++ chars := by simp
  have brace : '{'.utf8Size = 1 := rfl
  have hash : '#'.utf8Size = 1 := rfl
  rw [whole]
  refine fault.later ?_
  rw [Text.byteLength_cons, Text.byteLength_cons]
  omega

end Fault

/-- What is wrong from the first opener on; the text in front of it is not at fault. -/
theorem Fault.splitText {place : Nat} {chars rest : List Char} {error : ParseError}
    (split : (splitText chars).2 = rest) (fault : Fault (textEnd place chars) rest error) :
    Fault place chars error := by
  rw [← splitText_append chars, split]
  exact fault.behind _

/-- Where a source is not read, the error is about characters of it. -/
theorem scanSource_fault {place : Nat} {chars : List Char} {error : ParseError}
    (failed : scanSource place chars = .error error) : Fault place chars error := by
  replace failed := failsSource_of_eq_error failed
  induction failed with
  | region delimits opens failed => exact (Fault.region delimits failed).splitText opens
  | code delimits closes opens region _ later =>
      exact (later.code delimits closes region).splitText opens
  | unclosed opens => exact .splitText opens (.opener .comment _ _ _ rfl rfl)
  | comment opens skipped _ later =>
      obtain ⟨body, rfl, rfl, -⟩ := skipComment_eq_some skipped
      exact later.comment.splitText opens

end QueryTemplate.Lexer
