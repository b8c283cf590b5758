import QueryTemplate.Builder.Raw
import QueryTemplate.Number.Digits
import QueryTemplate.Text.Solid

set_option autoImplicit false

/- Builders as renderings of segments: raw texts with a parameter between any two of them. Each
operation on builders is the rendering of one on segments, and what is rendered is well-formed. -/

namespace QueryTemplate

open Text (byteLength)

namespace Text

theorem trimStart_append {c : Char} (filled : isBlank c = false) (text after : List Char) :
    trimStart (text ++ c :: after) = trimStart text ++ c :: after := by
  induction text with
  | nil => exact List.dropWhile_cons_of_neg (by simp [filled])
  | cons d text ih =>
      cases blank : isBlank d with
      | true =>
          simp only [trimStart, List.cons_append, List.dropWhile_cons, blank, ↓reduceIte]
          exact ih
      | false => simp only [trimStart, List.cons_append, List.dropWhile_cons, blank,
          Bool.false_eq_true, ↓reduceIte]

theorem trimEnd_append {c : Char} (filled : isBlank c = false) (front text : List Char) :
    trimEnd (front ++ ([c] ++ text)) = front ++ ([c] ++ trimEnd text) := by
  have reversed := trimStart_append filled text.reverse front.reverse
  unfold trimStart at reversed
  simp only [trimEnd, List.reverse_append, List.append_assoc, List.singleton_append, reversed,
    List.reverse_cons, List.reverse_reverse]

theorem byteLength_trimStart_le (text : List Char) :
    byteLength (trimStart text) ≤ byteLength text := by
  obtain ⟨blank, whole⟩ := List.dropWhile_suffix isBlank (l := text)
  rw [trimStart]
  conv => rhs; rw [← whole, byteLength_append]
  exact Nat.le_add_left _ _

end Text

/-- Each parameter with the text in front of it, and the text after the last one. -/
structure Segments where
  bound : List (List Char × Json) := []
  rest : List Char := []

namespace Segments

open Builder (Raw placeholderText placed)

def empty : Segments := {}

def push (segments : Segments) (text : List Char) : Segments :=
  { segments with rest := segments.rest ++ text }

def bind (segments : Segments) (value : Json) : Segments :=
  ⟨segments.bound ++ [(segments.rest, value)], []⟩

def append (segments : Segments) (other : Segments) : Segments :=
  match other.bound with
  | [] => segments.push other.rest
  | (text, value) :: more =>
    ⟨segments.bound ++ (segments.rest ++ text, value) :: more, other.rest⟩

/-- White space goes where no placeholder stands outside of it. -/
def trim (segments : Segments) : Segments :=
  match segments.bound with
  | [] => ⟨[], Text.trim segments.rest⟩
  | (text, value) :: more => ⟨(Text.trimStart text, value) :: more, Text.trimEnd segments.rest⟩

/-- All raw text, without a trace of the parameters. -/
def text (segments : Segments) : List Char := segments.bound.flatMap (·.1) ++ segments.rest

/-- The statement up to the last placeholder, the first one being that of parameter `index`. -/
def statementFrom (index : Nat) : List (List Char × Json) → List Char
  | [] => []
  | (text, _) :: more => text ++ placeholderText index ++ statementFrom (index + 1) more

/-- Where placeholders stand in a statement that begins at a byte. -/
def placesFrom (start index : Nat) : List (List Char × Json) → List Nat
  | [] => []
  | (text, _) :: more =>
    (start + byteLength text) ::
      placesFrom (start + byteLength text + byteLength (placeholderText index)) (index + 1) more

/-- The fields of the builder that shows the segments. -/
def raw (segments : Segments) (name : Option String) : Raw where
  name := name
  statement := statementFrom 0 segments.bound ++ segments.rest
  parameters := segments.bound.map (·.2)
  placeholders := placesFrom 0 0 segments.bound

theorem statementFrom_append (index : Nat) (first second : List (List Char × Json)) :
    statementFrom index (first ++ second) =
      statementFrom index first ++ statementFrom (index + first.length) second := by
  induction first generalizing index with
  | nil => rfl
  | cons entry first ih =>
      obtain ⟨text, value⟩ := entry
      simp only [List.cons_append, statementFrom, ih, List.append_assoc, List.length_cons]
      rw [Nat.add_right_comm, ← Nat.add_assoc]

theorem placesFrom_append (start index : Nat) (first second : List (List Char × Json)) :
    placesFrom start index (first ++ second) =
      placesFrom start index first ++
        placesFrom (start + byteLength (statementFrom index first)) (index + first.length)
          second := by
  induction first generalizing start index with
  | nil => rfl
  | cons entry first ih =>
      obtain ⟨text, value⟩ := entry
      simp only [List.cons_append, placesFrom, ih, statementFrom, Text.byteLength_append,
        List.length_cons, Nat.add_assoc, Nat.add_comm 1]

/-- A statement that begins later has its placeholders later. -/
theorem placesFrom_add (offset start index : Nat) (bound : List (List Char × Json)) :
    placesFrom (offset + start) index bound = (placesFrom start index bound).map (offset + ·) := by
  induction bound generalizing start index with
  | nil => rfl
  | cons entry bound ih =>
      obtain ⟨text, value⟩ := entry
      simp only [placesFrom, List.map_cons, Nat.add_assoc, ih]

theorem length_placesFrom (start index : Nat) (bound : List (List Char × Json)) :
    (placesFrom start index bound).length = bound.length := by
  induction bound generalizing start index with
  | nil => rfl
  | cons entry bound ih => exact congrArg (· + 1) (ih _ _)

theorem append_cons (segments : Segments) (text : List Char) (value : Json)
    (bound : List (List Char × Json)) (rest : List Char) :
    segments.append ⟨(text, value) :: bound, rest⟩ =
      ((segments.push text).bind value).append ⟨bound, rest⟩ := by
  cases bound with
  | nil => rfl
  | cons entry bound => simp only [append, bind, push, List.nil_append, List.append_assoc]; rfl

theorem bound_append (segments other : Segments) :
    (segments.append other).bound.map (·.2) =
      segments.bound.map (·.2) ++ other.bound.map (·.2) := by
  obtain ⟨bound, rest⟩ := other
  cases bound <;> simp [append, push]

/-- Fields show segments, parameters aside. -/
structure Shows (raw : Raw) (segments : Segments) : Prop where
  statement : raw.statement = statementFrom 0 segments.bound ++ segments.rest
  placeholders : raw.placeholders = placesFrom 0 0 segments.bound

theorem shows_raw (segments : Segments) (name : Option String) :
    Shows (segments.raw name) segments := ⟨rfl, rfl⟩

namespace Shows

variable {raw : Raw} {segments : Segments}

theorem eq_raw (shown : Shows raw segments)
    (parameters : raw.parameters = segments.bound.map (·.2)) : raw = segments.raw raw.name := by
  obtain ⟨name, statement, values, placeholders⟩ := raw
  obtain ⟨rfl, rfl⟩ := shown
  cases parameters
  rfl

theorem push (shown : Shows raw segments) (text : List Char) :
    Shows (raw.push text) (segments.push text) := by
  refine ⟨?_, shown.placeholders⟩
  rw [Raw.push, shown.statement, List.append_assoc]
  rfl

theorem writePlaceholder (shown : Shows raw segments) (value : Json) {index : Nat}
    (next : index = segments.bound.length) :
    Shows (raw.writePlaceholder index) (segments.bind value) := by
  subst next
  constructor
  · rw [Raw.writePlaceholder, shown.statement, bind, statementFrom_append]
    simp only [statementFrom, Nat.zero_add, List.append_nil, List.append_assoc]
  · rw [Raw.writePlaceholder, shown.placeholders, shown.statement, bind, placesFrom_append]
    simp only [placesFrom, Text.byteLength_append, Nat.zero_add]

/-- Parameters are copied one by one, each with the text in front of it, and every slice exists. -/
theorem copyFrom? (shown : Shows raw segments) {index copied : Nat} (front : List Char)
    (starts : byteLength front = copied) (bound : List (List Char × Json)) (rest : List Char)
    (count : raw.parameters.length + index = segments.bound.length) :
    ∃ after, raw.copyFrom? (front ++ (statementFrom index bound ++ rest)) index copied
        (placesFrom copied index bound) = some after ∧
      Shows after (segments.append ⟨bound, rest⟩) ∧
      after.parameters = raw.parameters ∧ after.name = raw.name := by
  induction bound generalizing raw segments front index copied with
  | nil =>
      have whole := Text.slice?_part front rest [] starts rfl
      rw [List.append_nil, ← starts, ← Text.byteLength_append] at whole
      refine ⟨raw.push rest, ?_, shown.push rest, rfl, rfl⟩
      simp only [statementFrom, placesFrom, List.nil_append, Raw.copyFrom?, ← starts, whole]
      rfl
  | cons entry bound ih =>
      obtain ⟨text, value⟩ := entry
      have before := Text.slice?_part front text
        (placeholderText index ++ statementFrom (index + 1) bound ++ rest) starts rfl
      have written := (shown.push text).writePlaceholder value count
      have counted : ((raw.push text).writePlaceholder
          (raw.parameters.length + index)).parameters.length + (index + 1) =
          ((segments.push text).bind value).bound.length := by
        simp only [bind, Segments.push, List.length_append, List.length_singleton]
        exact congrArg (· + 1) count
      have ends : byteLength (front ++ text ++ placeholderText index) =
          copied + byteLength text + byteLength (placeholderText index) := by
        rw [Text.byteLength_append, Text.byteLength_append, starts]
      obtain ⟨after, copiedOn, shownOn, kept⟩ := ih written _ ends counted
      refine ⟨after, ?_, by rwa [append_cons], kept⟩
      simp only [statementFrom, placesFrom, Raw.copyFrom?, List.append_assoc] at before copiedOn ⊢
      rw [before]
      exact copiedOn

end Shows

variable (segments other : Segments) (name : Option String)

theorem push_raw (text : List Char) :
    (segments.raw name).push text = (segments.push text).raw name :=
  ((shows_raw segments name).push text).eq_raw rfl

theorem bind_raw (value : Json) :
    (segments.raw name).bind value = (segments.bind value).raw name := by
  have count : (segments.raw name).parameters.length = segments.bound.length := List.length_map _
  have written := (shows_raw segments name).writePlaceholder value count
  have shown : Shows ((segments.raw name).bind value) (segments.bind value) :=
    ⟨written.statement, written.placeholders⟩
  apply shown.eq_raw
  simp only [bind, List.map_append, List.map_cons, List.map_nil]
  rfl

/-- Appending joins the segments. -/
theorem append?_raw (named : Option String) :
    (segments.raw name).append? (other.raw named) = some ((segments.append other).raw name) := by
  have count : (segments.raw name).parameters.length + 0 = segments.bound.length :=
    List.length_map _
  obtain ⟨after, copied, shown, parameters, kept⟩ :=
    (shows_raw segments name).copyFrom? [] rfl other.bound other.rest count
  have joined : Shows (after.addParameters (other.raw named).parameters)
      (segments.append other) := ⟨shown.statement, shown.placeholders⟩
  have whole := joined.eq_raw (by
    rw [bound_append, Raw.addParameters, parameters]
    rfl)
  calc (segments.raw name).append? (other.raw named)
      = some (after.addParameters (other.raw named).parameters) := by
        rw [Raw.append?]
        exact congrArg (· >>= _) copied
    _ = some ((segments.append other).raw name) := by
        rw [whole]
        exact congrArg (fun kept => some (raw _ kept)) kept

theorem solid_placeholderText (index : Nat) : Text.Solid (placeholderText index) :=
  Text.Solid.cons (by decide) (Decimal.solid_natText (index + 1))

/-- A placeholder ends the statement up to the last placeholder. -/
theorem statementFrom_ends (index : Nat) {bound : List (List Char × Json)} (present : bound ≠ []) :
    ∃ front c, statementFrom index bound = front ++ [c] ∧ Text.isBlank c = false := by
  induction bound generalizing index with
  | nil => contradiction
  | cons entry more ih =>
      obtain ⟨text, value⟩ := entry
      cases more with
      | nil =>
          obtain ⟨front, c, ended, filled⟩ := (solid_placeholderText index).ends
          exact ⟨text ++ front, c, by simp only [statementFrom, ended, List.append_nil,
            List.append_assoc], filled⟩
      | cons next more =>
          obtain ⟨front, c, ended, filled⟩ := ih (index + 1) (List.cons_ne_nil _ _)
          refine ⟨text ++ placeholderText index ++ front, c, ?_, filled⟩
          rw [statementFrom, ended, List.append_assoc _ front]

/-- White space in front of a placeholder ends at its `$`. -/
theorem trimStart_statementFrom (text : List Char) (value : Json)
    (more : List (List Char × Json)) (rest : List Char) :
    Text.trimStart (statementFrom 0 ((text, value) :: more) ++ rest) =
      statementFrom 0 ((Text.trimStart text, value) :: more) ++ rest := by
  simp only [statementFrom, placeholderText, List.append_assoc, List.cons_append]
  exact Text.trimStart_append (by decide) _ _

/-- The bytes of white space in front of the statement. -/
def leading : Nat :=
  byteLength (segments.raw name).statement -
    byteLength (Text.trimStart (segments.raw name).statement)

theorem trim_statement :
    Text.trim (segments.raw name).statement = (segments.trim.raw name).statement := by
  obtain ⟨_ | ⟨⟨text, value⟩, more⟩, rest⟩ := segments
  · rfl
  · obtain ⟨front, c, ended, filled⟩ :=
      statementFrom_ends 0 (List.cons_ne_nil (Text.trimStart text, value) more)
    change Text.trimEnd (Text.trimStart (statementFrom 0 ((text, value) :: more) ++ rest)) =
      statementFrom 0 ((Text.trimStart text, value) :: more) ++ Text.trimEnd rest
    rw [trimStart_statementFrom, ended, List.append_assoc, List.append_assoc]
    exact Text.trimEnd_append filled _ _

theorem parameters_trim : (segments.trim.raw name).parameters = (segments.raw name).parameters := by
  obtain ⟨_ | ⟨⟨text, value⟩, more⟩, rest⟩ := segments <;> rfl

/-- Every placeholder moves by the bytes that go in front of the first one. -/
theorem places_trim :
    (segments.raw name).placeholders =
      (segments.trim.raw name).placeholders.map (segments.leading name + ·) := by
  obtain ⟨_ | ⟨⟨text, value⟩, more⟩, rest⟩ := segments
  · rfl
  · have moved : leading ⟨(text, value) :: more, rest⟩ name =
        byteLength text - byteLength (Text.trimStart text) := by
      rw [leading, raw, trimStart_statementFrom]
      simp only [statementFrom, Text.byteLength_append]
      omega
    have shorter := Text.byteLength_trimStart_le text
    rw [moved, trim, raw, raw, ← placesFrom_add]
    simp only [placesFrom, Nat.add_zero, Nat.zero_add, Nat.sub_add_cancel shorter]

theorem mapM_sub? (places : List Nat) (less : Nat) :
    (places.map (less + ·)).mapM (Raw.sub? · less) = some places := by
  induction places with
  | nil => rfl
  | cons place places ih =>
      have first : Raw.sub? (less + place) less = some place := by
        rw [Raw.sub?, if_pos (Nat.le_add_right less place), Nat.add_sub_cancel_left]
      rw [List.map_cons, List.mapM_cons, first, ih]
      rfl

/-- No placeholder stands in the white space that goes. -/
theorem trim?_raw : (segments.raw name).trim? = some (segments.trim.raw name) := by
  have front : Raw.sub? (byteLength (segments.raw name).statement)
      (byteLength (Text.trimStart (segments.raw name).statement)) =
        some (segments.leading name) := by
    rw [Raw.sub?, if_pos (Text.byteLength_trimStart_le _)]
    rfl
  rw [Raw.trim?, front, places_trim, Option.bind_eq_bind, Option.bind_some, mapM_sub?,
    Option.bind_eq_bind, Option.bind_some, trim_statement, ← parameters_trim]
  rfl

theorem placed_statementFrom {start : Nat} (front : List Char) (starts : byteLength front = start)
    (index : Nat) (bound : List (List Char × Json)) (rest : List Char) :
    placed (front ++ (statementFrom index bound ++ rest)) index start
      (placesFrom start index bound) = true := by
  induction bound generalizing front start index with
  | nil => rfl
  | cons entry bound ih =>
      obtain ⟨text, value⟩ := entry
      have before := Text.slice?_part front text
        (placeholderText index ++ statementFrom (index + 1) bound ++ rest) starts rfl
      have reached : byteLength (front ++ text) = start + byteLength text := by
        rw [Text.byteLength_append, starts]
      have own := Text.slice?_part (front ++ text) (placeholderText index)
        (statementFrom (index + 1) bound ++ rest) reached rfl
      have after := ih (front ++ text ++ placeholderText index)
        (by rw [Text.byteLength_append, reached]) (index + 1)
      simp only [List.append_assoc] at before own after
      simp [statementFrom, placesFrom, placed, before, own, after]

theorem wf_raw : (segments.raw name).WF := by
  constructor
  · exact (length_placesFrom 0 0 segments.bound).trans (List.length_map _).symm
  · exact placed_statementFrom [] rfl 0 segments.bound segments.rest

/-- Between placeholders that stand where they are said to stand there are texts. -/
theorem exists_bound {start index : Nat} {front rest : List Char} {places : List Nat}
    {values : List Json} (starts : byteLength front = start)
    (counted : places.length = values.length)
    (stands : placed (front ++ rest) index start places = true) :
    ∃ bound tail, rest = statementFrom index bound ++ tail ∧
      places = placesFrom start index bound ∧ bound.map (·.2) = values := by
  induction places generalizing start index front rest values with
  | nil =>
      cases List.length_eq_zero_iff.mp counted.symm
      exact ⟨[], rest, rfl, rfl, rfl⟩
  | cons place places ih =>
      cases values with
      | nil => cases counted
      | cons value values =>
          simp only [placed, Bool.and_eq_true, beq_iff_eq, Option.isSome_iff_exists] at stands
          obtain ⟨⟨⟨text, before⟩, own⟩, after⟩ := stands
          obtain ⟨back, rfl, rfl⟩ := (Text.slice?_after starts).mp before
          have reached : byteLength (front ++ text) = start + byteLength text := by
            rw [Text.byteLength_append, starts]
          rw [← List.append_assoc] at own after
          obtain ⟨further, rfl, -⟩ := (Text.slice?_after reached).mp own
          rw [← List.append_assoc] at after
          obtain ⟨bound, tail, rfl, rfl, rfl⟩ := ih
            (by rw [Text.byteLength_append, reached]) (Nat.succ.inj counted) after
          refine ⟨(text, value) :: bound, tail, ?_, rfl, rfl⟩
          simp only [statementFrom, List.append_assoc]

/-- Well-formed fields show segments. -/
theorem exists_raw {raw : Raw} (wf : raw.WF) : ∃ segments : Segments, raw = segments.raw raw.name := by
  obtain ⟨name, statement, parameters, placeholders⟩ := raw
  obtain ⟨counted, stands⟩ := wf
  have stands : placed ([] ++ statement) 0 0 placeholders = true := stands
  obtain ⟨bound, rest, rfl, rfl, rfl⟩ := exists_bound rfl counted stands
  exact ⟨⟨bound, rest⟩, rfl⟩

end Segments

end QueryTemplate
