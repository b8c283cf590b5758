import QueryTemplate.Proofs.Builder.Rendering

set_option autoImplicit false

/- Statements that consist of pieces of given texts. What the text of a template writes into a
builder keeps it so, and a parameter adds nothing but its placeholder. -/

namespace QueryTemplate

/-- A concatenation of contiguous pieces of texts of a source. -/
def Text.Authored (source : String → Prop) (chars : List Char) : Prop :=
  ∃ pieces : List (List Char), chars = pieces.flatten ∧
    ∀ piece ∈ pieces, ∃ text, source text ∧ piece <:+: text.toList

namespace Text.Authored

variable {source : String → Prop} {chars others : List Char}

theorem nil : Authored source [] := ⟨[], rfl, fun _ within => nomatch within⟩

theorem piece {text : String} (given : source text) (inside : chars <:+: text.toList) :
    Authored source chars := by
  refine ⟨[chars], (List.append_nil chars).symm, fun piece within => ⟨text, given, ?_⟩⟩
  rwa [List.mem_singleton.mp within]

theorem append (first : Authored source chars) (second : Authored source others) :
    Authored source (chars ++ others) := by
  obtain ⟨pieces, rfl, all⟩ := first
  obtain ⟨more, rfl, rest⟩ := second
  refine ⟨pieces ++ more, List.flatten_append.symm, fun piece within => ?_⟩
  rcases List.mem_append.mp within with within | within
  · exact all piece within
  · exact rest piece within

theorem drop (authored : Authored source chars) (count : Nat) :
    Authored source (chars.drop count) := by
  obtain ⟨pieces, rfl, all⟩ := authored
  induction pieces generalizing count with
  | nil => rw [List.flatten_nil, List.drop_nil]; exact nil
  | cons first pieces ih =>
      obtain ⟨⟨text, given, inside⟩, rest⟩ := List.forall_mem_cons.mp all
      rw [List.flatten_cons, List.drop_append]
      exact (piece given ((List.drop_suffix _ _).isInfix.trans inside)).append (ih _ rest)

theorem take (authored : Authored source chars) (count : Nat) :
    Authored source (chars.take count) := by
  obtain ⟨pieces, rfl, all⟩ := authored
  induction pieces generalizing count with
  | nil => rw [List.flatten_nil, List.take_nil]; exact nil
  | cons first pieces ih =>
      obtain ⟨⟨text, given, inside⟩, rest⟩ := List.forall_mem_cons.mp all
      rw [List.flatten_cons, List.take_append]
      exact (piece given ((List.take_prefix _ _).isInfix.trans inside)).append (ih _ rest)

/-- A contiguous part of such a text is one. -/
theorem part (authored : Authored source chars) (inside : others <:+: chars) :
    Authored source others := by
  obtain ⟨before, after, rfl⟩ := inside
  have cut := (authored.drop before.length).take others.length
  rwa [List.append_assoc, List.drop_left, List.take_left] at cut

theorem trimStart (authored : Authored source chars) : Authored source (Text.trimStart chars) :=
  authored.part (List.dropWhile_suffix _).isInfix

theorem trimEnd (authored : Authored source chars) : Authored source (Text.trimEnd chars) := by
  refine authored.part (List.IsPrefix.isInfix ?_)
  have front := List.reverse_prefix.mpr (List.dropWhile_suffix Text.isBlank (l := chars.reverse))
  rwa [List.reverse_reverse] at front

end Text.Authored

structure Segments.Authored (source : String → Prop) (segments : Segments) : Prop where
  bound : ∀ entry ∈ segments.bound, Text.Authored source entry.1
  rest : Text.Authored source segments.rest

namespace Segments.Authored

variable {source : String → Prop} {segments other : Segments}

theorem empty : Segments.empty.Authored source where
  bound := fun _ within => nomatch within
  rest := .nil

theorem push (authored : segments.Authored source) {text : List Char}
    (given : Text.Authored source text) : (segments.push text).Authored source :=
  ⟨authored.bound, authored.rest.append given⟩

theorem bind (authored : segments.Authored source) (value : Json) :
    (segments.bind value).Authored source := by
  refine ⟨fun entry within => ?_, .nil⟩
  rcases List.mem_append.mp within with within | last
  · exact authored.bound entry within
  · rw [List.mem_singleton.mp last]
    exact authored.rest

theorem append (authored : segments.Authored source) (more : other.Authored source) :
    (segments.append other).Authored source := by
  obtain ⟨_ | ⟨⟨text, value⟩, bound⟩, rest⟩ := other
  · exact authored.push more.rest
  · refine ⟨fun entry within => ?_, more.rest⟩
    rcases List.mem_append.mp within with within | within
    · exact authored.bound entry within
    · rcases List.mem_cons.mp within with rfl | within
      · exact authored.rest.append (more.bound _ List.mem_cons_self)
      · exact more.bound entry (List.mem_cons_of_mem _ within)

theorem trim (authored : segments.Authored source) : segments.trim.Authored source := by
  obtain ⟨_ | ⟨⟨text, value⟩, more⟩, rest⟩ := segments
  · exact ⟨fun _ within => (List.not_mem_nil within).elim, authored.rest.trimStart.trimEnd⟩
  · refine ⟨fun entry within => ?_, authored.rest.trimEnd⟩
    rcases List.mem_cons.mp within with rfl | within
    · exact (authored.bound _ List.mem_cons_self).trimStart
    · exact authored.bound entry (List.mem_cons_of_mem _ within)

theorem text (authored : segments.Authored source) :
    Text.Authored source segments.text := by
  obtain ⟨bound, rest⟩ := segments
  obtain ⟨all, last⟩ := authored
  refine Text.Authored.append ?_ last
  clear last
  induction bound with
  | nil => exact .nil
  | cons entry bound ih =>
      obtain ⟨first, others⟩ := List.forall_mem_cons.mp all
      exact first.append (ih others)

end Segments.Authored

/-- The statement is that of segments whose texts come from a source. -/
def Builder.Authored (source : String → Prop) (builder : Builder) : Prop :=
  ∃ segments : Segments, builder = segments.render builder.name ∧ segments.Authored source

namespace Builder.Authored

variable {source : String → Prop} {builder other : Builder}

theorem of_render {segments : Segments} (name : Option String)
    (authored : segments.Authored source) : (segments.render name).Authored source :=
  ⟨segments, rfl, authored⟩

theorem empty : Builder.Authored source .empty := by
  rw [← Segments.render_empty]
  exact of_render none .empty

theorem rename (authored : builder.Authored source) (name : Option String) :
    Builder.Authored source { builder with name } := by
  obtain ⟨segments, whole, pieces⟩ := authored
  rw [whole]
  exact of_render name pieces

theorem push (authored : builder.Authored source) {text : List Char}
    (given : Text.Authored source text) : (builder.push text).Authored source := by
  obtain ⟨segments, whole, pieces⟩ := authored
  rw [whole, Segments.push_render]
  exact of_render _ (pieces.push given)

theorem bind (authored : builder.Authored source) (value : Json) :
    (builder.bind value).Authored source := by
  obtain ⟨segments, whole, pieces⟩ := authored
  rw [whole, Segments.bind_render]
  exact of_render _ (pieces.bind value)

theorem append (authored : builder.Authored source) (more : other.Authored source) :
    (builder.append other).Authored source := by
  obtain ⟨segments, whole, pieces⟩ := authored
  obtain ⟨others, same, rest⟩ := more
  rw [whole, same, Segments.append_render]
  exact of_render _ (pieces.append rest)

theorem trim (authored : builder.Authored source) : builder.trim.Authored source := by
  obtain ⟨segments, whole, pieces⟩ := authored
  rw [whole, Segments.trim_render]
  exact of_render _ pieces.trim

end Builder.Authored

end QueryTemplate
