import QueryTemplate.Builder.Basic

set_option autoImplicit false

/- Every builder is a rendering of segments, and the operations on builders are those on segments.
What is left of a statement without the placeholders is the text of the segments. -/

namespace QueryTemplate

open Text (byteLength)

namespace Segments

open Builder (placeholderText)

def render (segments : Segments) (name : Option String) : Builder :=
  ⟨segments.raw name, segments.wf_raw name⟩

theorem render_empty : empty.render none = .empty := rfl

theorem exists_render (builder : Builder) :
    ∃ segments : Segments, builder = segments.render builder.name := by
  obtain ⟨segments, shown⟩ := exists_raw builder.wf
  exact ⟨segments, Builder.ext shown⟩

variable (segments other : Segments) (name : Option String)

theorem push_render (text : List Char) :
    (segments.render name).push text = (segments.push text).render name :=
  Builder.ext (segments.push_raw name text)

theorem bind_render (value : Json) :
    (segments.render name).bind value = (segments.bind value).render name :=
  Builder.ext (segments.bind_raw name value)

/-- Appending joins the segments; the name of what is appended is dropped. -/
theorem append_render (named : Option String) :
    (segments.render name).append (other.render named) = (segments.append other).render name := by
  apply Builder.ext
  apply Option.some.inj
  rw [← Builder.append?_toRaw]
  exact segments.append?_raw other name named

theorem trim_render : (segments.render name).trim = segments.trim.render name := by
  apply Builder.ext
  apply Option.some.inj
  rw [← Builder.trim?_toRaw]
  exact segments.trim?_raw name

/-- The text in front of a placeholder. -/
theorem takeBytes_before (copied index : Nat) (text after rest : List Char) :
    Text.takeBytes (copied + byteLength text - copied)
      (text ++ placeholderText index ++ after ++ rest) = text := by
  rw [Nat.add_sub_cancel_left, List.append_assoc, List.append_assoc,
    Text.takeBytes_byteLength_append, Text.takeBytes_zero, List.append_nil]

theorem dropBytes_after (copied index : Nat) (text after rest : List Char) :
    Text.dropBytes (copied + byteLength text + byteLength (placeholderText index) - copied)
      (text ++ placeholderText index ++ after ++ rest) = after ++ rest := by
  rw [Nat.add_assoc, Nat.add_sub_cancel_left, ← Text.byteLength_append, List.append_assoc,
    Text.dropBytes_byteLength_append, Text.dropBytes_zero]

end Segments

namespace Builder

@[simp] theorem name_append (builder other : Builder) :
    (builder.append other).name = builder.name := by
  obtain ⟨segments, shown⟩ := Segments.exists_render builder
  obtain ⟨others, more⟩ := Segments.exists_render other
  have joined := Segments.append_render segments others builder.name other.name
  rw [← shown, ← more] at joined
  rw [joined]
  rfl

/-- A statement from its byte `copied` on without the placeholders at the recorded offsets, the
first of which is that of parameter `index`. -/
def cutFrom (index copied : Nat) (rest : List Char) : List Nat → List Char
  | [] => rest
  | place :: places =>
    let stop := place + byteLength (placeholderText index)
    Text.takeBytes (place - copied) rest ++
      cutFrom (index + 1) stop (Text.dropBytes (stop - copied) rest) places

/-- The statement without the placeholders that the builder wrote. -/
def cut (builder : Builder) : List Char := cutFrom 0 0 builder.statement builder.placeholders

end Builder

namespace Segments

theorem cutFrom_statement (index copied : Nat) (bound : List (List Char × Json))
    (rest : List Char) :
    Builder.cutFrom index copied (statementFrom index bound ++ rest) (placesFrom copied index bound) =
      bound.flatMap (·.1) ++ rest := by
  induction bound generalizing index copied with
  | nil => rfl
  | cons entry bound ih =>
      obtain ⟨text, value⟩ := entry
      simp only [statementFrom, placesFrom, Builder.cutFrom, takeBytes_before, dropBytes_after, ih]
      rw [List.flatMap_cons, List.append_assoc]

theorem cut_render (segments : Segments) (name : Option String) :
    (segments.render name).cut = segments.text := cutFrom_statement 0 0 _ _

end Segments

end QueryTemplate
