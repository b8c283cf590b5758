import Mathlib.Data.List.TakeWhile
import QueryTemplate.Proofs.Builder.Rendering

set_option autoImplicit false

/- Builders written as lists of raw texts and parameters. Such a list shows a statement with its
placeholders and where they stand, appending joins lists, and trimming takes white space off the
ends. -/

namespace QueryTemplate

open Text (byteLength)
open Builder (placeholderText)

namespace Text

theorem trimStart_append_of_all {front : List Char} (blank : front.all isBlank = true)
    (text : List Char) : trimStart (front ++ text) = trimStart text :=
  List.dropWhile_append_of_pos (List.all_eq_true.mp blank)

theorem trimStart_append_of_not_all {front : List Char} (filled : ¬ front.all isBlank = true)
    (text : List Char) : trimStart (front ++ text) = trimStart front ++ text := by
  have present : front.dropWhile isBlank ≠ [] := by
    rwa [Ne, List.dropWhile_eq_nil_iff, ← List.all_eq_true]
  rw [trimStart, List.dropWhile_append, if_neg (by simpa using present)]
  rfl

theorem trimEnd_append_of_all {back : List Char} (blank : back.all isBlank = true)
    (text : List Char) : trimEnd (text ++ back) = trimEnd text := by
  have blank' : back.reverse.all isBlank = true := by simpa using blank
  have reversed := trimStart_append_of_all blank' text.reverse
  unfold trimStart at reversed
  rw [trimEnd, List.reverse_append, reversed]
  rfl

theorem trimEnd_append_of_not_all {back : List Char} (filled : ¬ back.all isBlank = true)
    (text : List Char) : trimEnd (text ++ back) = text ++ trimEnd back := by
  have filled' : ¬ back.reverse.all isBlank = true := by simpa using filled
  have reversed := trimStart_append_of_not_all filled' text.reverse
  unfold trimStart at reversed
  rw [trimEnd, List.reverse_append, reversed, List.reverse_append, List.reverse_reverse]
  rfl

theorem head?_trimStart {c : Char} {text : List Char} (first : (trimStart text).head? = some c) :
    isBlank c = false := by
  have filled := List.head?_dropWhile_not isBlank text
  rw [trimStart] at first
  rwa [first] at filled

/-- Only white space goes, and what is left has none at its ends. -/
theorem trim_parts (chars : List Char) :
    ∃ front back, chars = front ++ trim chars ++ back ∧
      byteLength front = byteLength chars - byteLength (trimStart chars) ∧
      (∀ c ∈ front ++ back, isBlank c = true) ∧
      (∀ c ∈ (trim chars).head?, isBlank c = false) ∧
      ∀ c ∈ (trim chars).getLast?, isBlank c = false := by
  have opened : chars.takeWhile isBlank ++ trimStart chars = chars := List.takeWhile_append_dropWhile
  generalize kept : trimStart chars = rest at opened
  have closed : trimEnd rest ++ (rest.reverse.takeWhile isBlank).reverse = rest := by
    rw [trimEnd, ← List.reverse_append, List.takeWhile_append_dropWhile, List.reverse_reverse]
  have whole : trim chars = trimEnd rest := by rw [trim, kept]
  refine ⟨chars.takeWhile isBlank, (rest.reverse.takeWhile isBlank).reverse, ?_, ?_, ?_, ?_, ?_⟩
  · rw [whole, List.append_assoc, closed, opened]
  · conv => rhs; rw [← opened, byteLength_append]
    exact (Nat.add_sub_cancel ..).symm
  · intro c within
    rcases List.mem_append.mp within with within | within
    · exact List.mem_takeWhile_imp within
    · exact List.mem_takeWhile_imp (List.mem_reverse.mp within)
  · intro c first
    have starts : c ∈ (trimStart chars).head? := by
      rw [kept, ← closed, List.head?_append, ← whole, Option.mem_def.mp first]
      rfl
    exact head?_trimStart starts
  · intro c last
    rw [whole, trimEnd, List.getLast?_reverse] at last
    exact head?_trimStart last

end Text

inductive Segment
  | text (content : List Char)
  | parameter (value : Json)

namespace Segment

/-- The text of segments, the first parameter among them being that of an index. -/
def statementFrom (index : Nat) : List Segment → List Char
  | [] => []
  | text content :: rest => content ++ statementFrom index rest
  | parameter _ :: rest => placeholderText index ++ statementFrom (index + 1) rest

/-- The bytes at which the parameters of segments stand. -/
def placesFrom (start index : Nat) : List Segment → List Nat
  | [] => []
  | text content :: rest => placesFrom (start + byteLength content) index rest
  | parameter _ :: rest =>
    start :: placesFrom (start + byteLength (placeholderText index)) (index + 1) rest

def value? : Segment → Option Json
  | text _ => none
  | parameter value => some value

def isBlank : Segment → Bool
  | text content => content.all Text.isBlank
  | parameter _ => false

def trimStart : List Segment → List Segment
  | text content :: rest =>
    if content.all Text.isBlank then trimStart rest else text (Text.trimStart content) :: rest
  | segments => segments

def trimEnd : List Segment → List Segment
  | [] => []
  | segment :: rest =>
    if rest.all isBlank then
      match segment with
      | text content => [text (Text.trimEnd content)]
      | parameter value => [parameter value]
    else segment :: trimEnd rest

/-- The segments that one segment is. -/
def single : Segment → Segments
  | text content => ⟨[], content⟩
  | parameter value => ⟨[([], value)], []⟩

end Segment

/-- A builder as it is written: its name and its segments. -/
structure Outline where
  name : Option String := none
  segments : List Segment := []

namespace Outline

/-- The fields of the builder that is written. -/
def raw (outline : Outline) : Builder.Raw where
  name := outline.name
  statement := Segment.statementFrom 0 outline.segments
  parameters := outline.segments.filterMap Segment.value?
  placeholders := Segment.placesFrom 0 0 outline.segments

/-- Appending joins the segments; the name of what is appended is dropped. -/
def append (outline other : Outline) : Outline :=
  { outline with segments := outline.segments ++ other.segments }

def trim (outline : Outline) : Outline :=
  { outline with segments := Segment.trimEnd (Segment.trimStart outline.segments) }

end Outline

namespace Segments

theorem empty_append (segments : Segments) : empty.append segments = segments := by
  obtain ⟨_ | ⟨entry, more⟩, rest⟩ := segments <;> rfl

theorem append_assoc (first second third : Segments) :
    (first.append second).append third = first.append (second.append third) := by
  obtain ⟨_ | ⟨⟨text, value⟩, more⟩, rest⟩ := second <;>
    obtain ⟨_ | ⟨⟨other, given⟩, others⟩, last⟩ := third <;>
    simp [append, push]

/-- Segments with neighbouring texts joined. -/
def ofList : List Segment → Segments
  | [] => empty
  | segment :: rest => segment.single.append (ofList rest)

theorem ofList_append (first second : List Segment) :
    ofList (first ++ second) = (ofList first).append (ofList second) := by
  induction first with
  | nil => exact (empty_append _).symm
  | cons segment first ih => rw [List.cons_append, ofList, ofList, ih, append_assoc]

theorem statementFrom_ofList (index : Nat) (segments : List Segment) :
    Segment.statementFrom index segments =
      statementFrom index (ofList segments).bound ++ (ofList segments).rest := by
  induction segments generalizing index with
  | nil => rfl
  | cons segment segments ih =>
      cases segment with
      | text content =>
          rw [Segment.statementFrom, ih, ofList]
          obtain ⟨_ | ⟨⟨text, value⟩, more⟩, rest⟩ := ofList segments <;>
            simp [append, push, Segment.single, statementFrom]
      | parameter value =>
          rw [Segment.statementFrom, ih, ofList]
          obtain ⟨_ | ⟨⟨text, other⟩, more⟩, rest⟩ := ofList segments <;>
            simp [append, push, Segment.single, statementFrom]

theorem placesFrom_ofList (start index : Nat) (segments : List Segment) :
    Segment.placesFrom start index segments = placesFrom start index (ofList segments).bound := by
  induction segments generalizing start index with
  | nil => rfl
  | cons segment segments ih =>
      cases segment with
      | text content =>
          rw [Segment.placesFrom, ih, ofList]
          obtain ⟨_ | ⟨⟨text, value⟩, more⟩, rest⟩ := ofList segments <;>
            simp [append, push, Segment.single, placesFrom, Nat.add_assoc]
      | parameter value =>
          rw [Segment.placesFrom, ih, ofList]
          obtain ⟨_ | ⟨⟨text, other⟩, more⟩, rest⟩ := ofList segments <;>
            simp [append, push, Segment.single, placesFrom]

theorem values_ofList (segments : List Segment) :
    segments.filterMap Segment.value? = (ofList segments).bound.map (·.2) := by
  induction segments with
  | nil => rfl
  | cons segment segments ih =>
      rw [ofList, List.filterMap_cons]
      cases segment with
      | text content =>
          rw [Segment.value?, ih]
          obtain ⟨_ | ⟨⟨text, value⟩, more⟩, rest⟩ := ofList segments <;> rfl
      | parameter value =>
          rw [Segment.value?, ih]
          obtain ⟨_ | ⟨⟨text, other⟩, more⟩, rest⟩ := ofList segments <;> rfl

theorem raw_ofList (outline : Outline) :
    outline.raw = (ofList outline.segments).raw outline.name := by
  rw [Outline.raw, raw, statementFrom_ofList, placesFrom_ofList, values_ofList]

end Segments

def Outline.render (outline : Outline) : Builder where
  toRaw := outline.raw
  wf := by
    rw [Segments.raw_ofList]
    exact Segments.wf_raw _ _

namespace Segments

theorem render_ofList (outline : Outline) :
    outline.render = (ofList outline.segments).render outline.name :=
  Builder.ext (raw_ofList outline)

def trimFront (segments : Segments) : Segments :=
  match segments.bound with
  | [] => ⟨[], Text.trimStart segments.rest⟩
  | (text, value) :: more => ⟨(Text.trimStart text, value) :: more, segments.rest⟩

def trimBack (segments : Segments) : Segments :=
  { segments with rest := Text.trimEnd segments.rest }

theorem trimBack_trimFront (segments : Segments) : segments.trimFront.trimBack = segments.trim := by
  obtain ⟨_ | ⟨entry, more⟩, rest⟩ := segments <;> rfl

theorem ofList_trimStart (segments : List Segment) :
    ofList (Segment.trimStart segments) = (ofList segments).trimFront := by
  induction segments with
  | nil => rfl
  | cons segment segments ih =>
      cases segment with
      | parameter value =>
          rw [Segment.trimStart, ofList]
          · obtain ⟨_ | ⟨⟨text, other⟩, more⟩, rest⟩ := ofList segments <;> rfl
          · intro _ _ same
            cases same
      | text content =>
          rw [Segment.trimStart, ofList]
          by_cases blank : content.all Text.isBlank = true
          · rw [if_pos blank, ih]
            obtain ⟨_ | ⟨⟨text, value⟩, more⟩, rest⟩ := ofList segments <;>
              simp [append, push, Segment.single, trimFront, Text.trimStart_append_of_all blank]
          · rw [if_neg blank, ofList]
            obtain ⟨_ | ⟨⟨text, value⟩, more⟩, rest⟩ := ofList segments <;>
              simp [append, push, Segment.single, trimFront, Text.trimStart_append_of_not_all blank]

theorem all_isBlank_iff (segments : List Segment) :
    segments.all Segment.isBlank = true ↔
      (ofList segments).bound = [] ∧ (ofList segments).rest.all Text.isBlank = true := by
  induction segments with
  | nil => exact iff_of_true rfl ⟨rfl, rfl⟩
  | cons segment segments ih =>
      rw [List.all_cons, Bool.and_eq_true, ih, ofList]
      cases segment <;>
        obtain ⟨_ | ⟨⟨text, value⟩, more⟩, rest⟩ := ofList segments <;>
        simp [append, push, Segment.single, Segment.isBlank]

theorem ofList_trimEnd (segments : List Segment) :
    ofList (Segment.trimEnd segments) = (ofList segments).trimBack := by
  induction segments with
  | nil => rfl
  | cons segment segments ih =>
      have joined := all_isBlank_iff segments
      by_cases blank : segments.all Segment.isBlank = true
      · obtain ⟨none, white⟩ := joined.mp blank
        rw [ofList]
        generalize ofList segments = whole at none white
        obtain ⟨bound, rest⟩ := whole
        cases none
        have gone := Text.trimEnd_append_of_all white
        cases segment with
        | text content =>
            simp [Segment.trimEnd, blank, ofList, append, push, Segment.single, trimBack, gone, empty]
        | parameter value =>
            have nothing : Text.trimEnd rest = [] := gone []
            simp [Segment.trimEnd, blank, ofList, append, push, Segment.single, trimBack, nothing,
              empty]
      · have kept : Segment.trimEnd (segment :: segments) = segment :: Segment.trimEnd segments := by
          cases segment <;> simp [Segment.trimEnd, blank]
        rw [kept, ofList, ofList, ih]
        generalize ofList segments = whole at joined
        obtain ⟨_ | ⟨⟨text, value⟩, more⟩, rest⟩ := whole
        · have filled : ¬ rest.all Text.isBlank = true := fun white => blank (joined.mpr ⟨rfl, white⟩)
          have ended := Text.trimEnd_append_of_not_all filled
          cases segment <;> simp [append, push, Segment.single, trimBack, ended]
        · cases segment <;> rfl

theorem render_trim (outline : Outline) : outline.trim.render = outline.render.trim := by
  rw [render_ofList, render_ofList, trim_render, Outline.trim, ofList_trimEnd, ofList_trimStart,
    trimBack_trimFront]

end Segments

end QueryTemplate
