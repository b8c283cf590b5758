import QueryTemplate.Proofs.Reading.Names
import QueryTemplate.Proofs.Reading.Spans

set_option autoImplicit false

/- Places in the tree of a template. Names stand in the source where the tree says that they do,
parts lie in order inside of what they are parts of, and a walk through the tree goes forward in the
source. -/

namespace QueryTemplate

open Reader

/-- The name that a keyword argument is given under. -/
def Arg.key? : Arg → Option (Located String)
  | .positional _ => none
  | .keyword key keySpan _ => some ⟨key, keySpan⟩

/-- The names that an element holds itself: of a tag and its keywords, of what a loop or an
assignment binds, of a filter, of a variable. -/
def Element.names : Element → List (Located String)
  | .node (.loop var varSpan _ _ _) => [⟨var, varSpan⟩]
  | .node (.assign var varSpan _ _) => [⟨var, varSpan⟩]
  | .node (.tag name nameSpan args _ _) => ⟨name, nameSpan⟩ :: args.filterMap Arg.key?
  | .expr (.filter _ _ name nameSpan _ _) => [⟨name, nameSpan⟩]
  | .expr (.var name span) => [⟨name, span⟩]
  | _ => []

/-- The places of what an element is made of, where these are in its span: of an `if` block its first
condition, of a block no body. -/
def Element.places : Element → List Span
  | .node (.output value _) => [value.span]
  | .node (.branch ((condition, _) :: _) _ _) => [condition.span]
  | .node (.loop _ varSpan iterable _ _) => [varSpan, iterable.span]
  | .node (.assign _ varSpan value _) => [varSpan, value.span]
  | .node (.tag _ nameSpan args _ _) => nameSpan :: args.flatMap Arg.places
  | .node _ => []
  | .expr value => value.places

theorem Node.OpenedBy.places {node : Node} {chunk : Chunk} (opened : node.OpenedBy chunk) :
    (Element.node node).places = chunk.places := by
  cases opened <;> rfl

theorem Expr.Derived.names {level : Precedence} {expr : Expr} {used : List (Located Token)}
    (derived : Derived level expr used) :
    ∀ element ∈ expr.elements, ∀ name ∈ element.names, ⟨.ident name.value, name.span⟩ ∈ used := by
  induction derived with
  | literal =>
      intro element within name named
      rw [List.mem_singleton.mp within] at named
      cases named
  | var =>
      intro element within name named
      rw [List.mem_singleton.mp within] at named
      obtain rfl := List.mem_singleton.mp named
      exact List.mem_cons_self
  | parens _ _ _ ih =>
      intro element within name named
      exact List.mem_append_left _ (List.mem_cons_of_mem _ (ih element within name named))
  | attr _ _ _ _ ih =>
      intro element within name named
      rcases List.mem_cons.mp within with rfl | within
      · cases named
      · exact List.mem_append_left _ (ih element within name named)
  | filter _ _ _ _ _ _ inside ih others =>
      intro element within name named
      rcases mem_elements.mp within with rfl | ⟨part, listed, inner⟩
      · obtain rfl := List.mem_singleton.mp named
        exact List.mem_append_right _ (List.mem_cons_of_mem _ List.mem_cons_self)
      · rcases List.mem_cons.mp listed with rfl | listed
        · exact List.mem_append_left _ (ih element inner name named)
        · obtain ⟨arg, member, rfl⟩ := List.mem_map.mp listed
          have own := others arg member element inner name named
          have later := (sublist_of_argument inside member).subset own
          exact List.mem_append_right _ (List.mem_cons_of_mem _ (List.mem_cons_of_mem _ later))
  | negate _ _ ih =>
      intro element within name named
      rcases List.mem_cons.mp within with rfl | within
      · cases named
      · exact List.mem_cons_of_mem _ (ih element within name named)
  | binary _ _ _ _ ih others =>
      intro element within name named
      rcases List.mem_cons.mp within with rfl | within
      · cases named
      · rcases List.mem_append.mp within with within | within
        · exact List.mem_append_left _ (ih element within name named)
        · have later := others element within name named
          exact List.mem_append_right _ (List.mem_cons_of_mem _ later)
  | of_tighter _ _ ih => exact ih

theorem Arg.Listed.key {arg : Arg} {used : List (Located Token)} (listed : arg.Listed used)
    {key : Located String} (named : arg.key? = some key) :
    ⟨.ident key.value, key.span⟩ ∈ used := by
  have alone {used : List (Located Token)} (derived : arg.Derived used) :
      ⟨.ident key.value, key.span⟩ ∈ used := by
    cases derived with
    | positional => cases named
    | keyword =>
        cases named
        exact List.mem_cons_self
  cases listed with
  | alone derived => exact alone derived
  | comma derived _ => exact List.mem_append_left _ (alone derived)

theorem Node.OpenedBy.names {node : Node} {chunk : Chunk} (opened : node.OpenedBy chunk)
    {used : List (Located Token)} (derived : chunk.Derived used) :
    ∀ name ∈ (Element.node node).names, ⟨.ident name.value, name.span⟩ ∈ used := by
  intro name named
  cases opened with
  | text => cases named
  | output => cases named
  | branch => cases named
  | loop =>
      obtain rfl := List.mem_singleton.mp named
      cases derived with
      | header _ _ derived =>
          cases derived with
          | loop => simp
  | assign =>
      obtain rfl := List.mem_singleton.mp named
      cases derived with
      | header _ _ derived =>
          cases derived with
          | assign => simp
  | tag =>
      cases derived with
      | header _ _ derived =>
          cases derived with
          | tag _ _ parts =>
              refine List.mem_cons_of_mem _ (List.mem_append_left _ ?_)
              rcases List.mem_cons.mp named with rfl | keyword
              · exact List.mem_cons_self
              · obtain ⟨arg, member, key⟩ := List.mem_filterMap.mp keyword
                obtain ⟨own, part, listed⟩ := parts.exists_of_mem member
                exact List.mem_cons_of_mem _ (part.subset (listed.key key))

namespace Template

variable {grammars : TagGrammars} {source : String} {template : Template}

/-- Every name in the tree is the slice of the source at its place. Everything in an expression lies
inside of it, and what an element is made of, its operands and arguments too, lies inside of it in
increasing places that share nothing. A walk through the tree meets no place that begins before the
one that it comes from. -/
theorem spans_follow_source (parsed : parse grammars source = .ok template) :
    (∀ element ∈ template.elements, ∀ name ∈ element.names,
      Text.slice? name.span.start name.span.stop source.toList = some name.value.toList) ∧
    (∀ expr, .expr expr ∈ template.elements → ∀ sub, .expr sub ∈ expr.elements →
      sub.span.Within expr.span) ∧
    (∀ element ∈ template.elements, element.span.Holds element.places) ∧
    (template.elements.map (·.span.start)).Pairwise (· ≤ ·) := by
  obtain ⟨found, chunks, scanned, parts, walk⟩ := exists_walk parsed
  have ordered : InOrder found := .of_tokens scanned
  have placed (chunk : Chunk) (member : chunk ∈ chunks) :
      ∃ own, own.Sublist found ∧ chunk.Derived own ∧ chunk.Placed := by
    obtain ⟨own, part, derived⟩ := parts.exists_of_mem member
    exact ⟨own, part, derived, derived.placed (ordered.sublist part)⟩
  have exprs (expr : Expr) (within : .expr expr ∈ template.elements) :
      ∃ chunk ∈ chunks, .expr expr ∈ chunk.elements :=
    List.mem_flatMap.mp (walk.exprs expr within)
  have named : ∀ element ∈ template.elements, ∀ name ∈ element.names,
      ⟨.ident name.value, name.span⟩ ∈ found := by
    rintro (node | expr) within name own
    · obtain ⟨chunk, member, opened⟩ := walk.opened within
      obtain ⟨_, part, derived, -⟩ := placed chunk member
      exact part.subset (opened.names derived name own)
    · obtain ⟨chunk, member, inside⟩ := exprs expr within
      rw [Chunk.elements_eq_flatMap] at inside
      obtain ⟨top, listed, inner⟩ := List.mem_flatMap.mp inside
      obtain ⟨_, part, derived, -⟩ := placed chunk member
      obtain ⟨_, part', derived⟩ := derived.exprs top listed
      exact part.subset (part'.subset (derived.names _ inner name own))
  have holds : ∀ element ∈ template.elements, element.span.Holds element.places := by
    rintro (node | expr) within
    · obtain ⟨chunk, member, opened⟩ := walk.opened within
      obtain ⟨_, -, -, placed⟩ := placed chunk member
      rw [opened.places, Element.span, opened.span_eq]
      exact placed.holds
    · obtain ⟨chunk, member, inside⟩ := exprs expr within
      obtain ⟨_, -, -, placed⟩ := placed chunk member
      exact placed.exprs expr inside
  refine ⟨fun element within name own => ?_, fun expr within sub inner => ?_, holds, ?_⟩
  · exact (slice_of_ident scanned (named element within name own)).1
  · obtain ⟨chunk, member, inside⟩ := exprs expr within
    obtain ⟨_, -, -, placed⟩ := placed chunk member
    rw [Chunk.elements_eq_flatMap] at inside
    obtain ⟨top, listed, deeper⟩ := List.mem_flatMap.mp inside
    have descends := expr.descends fun part among => placed.exprs part (by
      rw [Chunk.elements_eq_flatMap]
      exact List.mem_flatMap.mpr ⟨top, listed, Expr.elements_subset deeper among⟩)
    exact descends.within _ (List.mem_map_of_mem (f := Element.span) inner)
  · have sorted := (Chunk.sorted_spans parts ordered).sublist walk.spans_sublist
    rw [List.pairwise_map] at sorted ⊢
    exact sorted

/-- In `{% for x in a | f %}{% t not x.b, k=(a <= 1) %}{% endfor %}` the tag is not of the loop's
span, and the parentheses are of no span at all. -/
theorem spans_follow_source_loop :
    let source := "\x7b% for x in a | f %\x7d\x7b% t not x.b, k=(a <= 1) %\x7d\x7b% endfor %\x7d"
    ∃ template, parse (.ofList [⟨"t", false⟩]) source = .ok template ∧
      template.elements.map (fun element => (element.kind, element.span)) =
        [(.loop, ⟨0, 20⟩), (.filter, ⟨12, 17⟩), (.var, ⟨12, 13⟩), (.tag, ⟨20, 47⟩),
          (.negate, ⟨25, 32⟩), (.attr, ⟨29, 32⟩), (.var, ⟨29, 30⟩), (.binary, ⟨37, 43⟩),
          (.var, ⟨37, 38⟩), (.literal, ⟨42, 43⟩)] ∧
      template.elements.flatMap Element.names =
        [⟨"x", ⟨7, 8⟩⟩, ⟨"f", ⟨16, 17⟩⟩, ⟨"a", ⟨12, 13⟩⟩, ⟨"t", ⟨23, 24⟩⟩, ⟨"k", ⟨34, 35⟩⟩,
          ⟨"x", ⟨29, 30⟩⟩, ⟨"a", ⟨37, 38⟩⟩] ∧
      (∀ name ∈ template.elements.flatMap Element.names,
        Text.slice? name.span.start name.span.stop source.toList = some name.value.toList) ∧
      (∀ element ∈ template.elements, element.span.Holds element.places) ∧
      (template.elements.map (·.span.start)).Pairwise (· ≤ ·) := by
  intro source
  have reads : (parse (.ofList [⟨"t", false⟩]) source).toOption.any (fun template =>
      decide (template.elements.map (fun element => (element.kind, element.span)) =
        [(.loop, ⟨0, 20⟩), (.filter, ⟨12, 17⟩), (.var, ⟨12, 13⟩), (.tag, ⟨20, 47⟩),
          (.negate, ⟨25, 32⟩), (.attr, ⟨29, 32⟩), (.var, ⟨29, 30⟩), (.binary, ⟨37, 43⟩),
          (.var, ⟨37, 38⟩), (.literal, ⟨42, 43⟩)] ∧
      template.elements.flatMap Element.names =
        [⟨"x", ⟨7, 8⟩⟩, ⟨"f", ⟨16, 17⟩⟩, ⟨"a", ⟨12, 13⟩⟩, ⟨"t", ⟨23, 24⟩⟩, ⟨"k", ⟨34, 35⟩⟩,
          ⟨"x", ⟨29, 30⟩⟩, ⟨"a", ⟨37, 38⟩⟩])) = true := by decide +kernel
  obtain ⟨template, parsed, reads⟩ := (Option.any_eq_true ..).mp reads
  obtain ⟨kinds, names⟩ := of_decide_eq_true reads
  have parsed := eq_ok_iff_toOption.mpr parsed
  obtain ⟨slices, -, holds, sorted⟩ := spans_follow_source parsed
  refine ⟨template, parsed, kinds, names, fun name within => ?_, holds, sorted⟩
  obtain ⟨element, listed, own⟩ := List.mem_flatMap.mp within
  exact slices element listed name own

end Template

end QueryTemplate
