import QueryTemplate.Proofs.Compilation.Extending
import QueryTemplate.Proofs.Reading.Names
import QueryTemplate.Proofs.Reading.Spans
import QueryTemplate.Proofs.Template.Symbols

set_option autoImplicit false

/- What is missing at run time. The symbols of a tree are gathered with the target of a filter
before the filter, which is the order of their names in the source; so the first symbol without
behaviour is the leftmost one. -/

namespace QueryTemplate

/-- Among items in ascending order, the first that a test admits is the least one. -/
theorem find?_eq_some_iff_least {α : Type} {place : α → Nat} {items : List α} {admits : α → Bool}
    (ascending : items.Pairwise fun first second => place first < place second) {item : α} :
    items.find? admits = some item ↔ item ∈ items ∧ admits item = true ∧
      ∀ other ∈ items, admits other = true → other = item ∨ place item < place other := by
  have least {item : α} (found : items.find? admits = some item) :
      ∀ other ∈ items, admits other = true → other = item ∨ place item < place other := by
    obtain ⟨-, front, back, rfl, passed⟩ := List.find?_eq_some_iff_append.mp found
    intro other within admitted
    rcases List.mem_append.mp within with early | late
    · have refused := passed other early
      rw [admitted] at refused
      cases refused
    · have above := (List.pairwise_cons.mp (List.pairwise_append.mp ascending).2.1).1 other
      exact (List.mem_cons.mp late).imp id above
  constructor
  · intro found
    exact ⟨List.mem_of_find?_eq_some found, List.find?_some found, least found⟩
  · rintro ⟨within, admitted, smallest⟩
    obtain ⟨first, found⟩ := Option.isSome_iff_exists.mp
      (List.find?_isSome.mpr ⟨item, within, admitted⟩)
    have below := least found item within admitted
    have above := smallest first (List.mem_of_find?_eq_some found) (List.find?_some found)
    rcases below with rfl | below
    · exact found
    · rcases above with rfl | above
      · exact found
      · exact absurd below (Nat.not_lt_of_lt above)

theorem generate_eq_error {template : Template} {env : RuntimeEnvironment} {error : CompileError} :
    generate template env = .error error ↔ ∃ symbol, error = .unresolved symbol ∧
      template.symbols.find? (fun symbol => !env.resolves symbol) = some symbol := by
  unfold generate
  split
  next symbol found => simp [found, eq_comm]
  next absent => simp [absent]

namespace Template

variable {grammars : TagGrammars} {source : String} {template : Template}

/-- The names of tags and filters stand in the source in the order in which they are gathered. -/
theorem symbols_ascend (parsed : parse grammars source = .ok template) :
    template.symbols.Pairwise fun first second => first.span.start < second.span.start := by
  obtain ⟨found, scanned, named⟩ := named_symbols parsed
  have ordered := (InOrder.of_tokens scanned).sublist named
  refine (List.pairwise_map.mp ordered.apart).imp_of_mem fun first _ before => ?_
  have filled := ordered.filled _ (List.mem_map_of_mem first)
  exact Nat.lt_of_lt_of_le filled before

theorem slice_symbol (parsed : parse grammars source = .ok template) {symbol : Symbol}
    (within : symbol ∈ template.symbols) :
    Text.slice? symbol.span.start symbol.span.stop source.toList = some symbol.name.toList := by
  obtain ⟨found, scanned, named⟩ := named_symbols parsed
  exact (slice_of_ident scanned (named.subset (List.mem_map_of_mem within))).1

/-- Code is generated for the tree of a source, with whatever filters marked, if and only if every
tag and filter that an element of the tree names has behaviour at run time. Otherwise the error tells
the one without whose name begins first in the source: its kind, its name, and where that stands. -/
theorem unresolved_leftmost (parsed : parse grammars source = .ok template) {tree : Template}
    (made : tree = template ∨ ∃ names, tree = template.awaiting names) (env : RuntimeEnvironment) :
    ((∃ program, generate tree env = .ok program) ↔
      ∀ symbol ∈ Element.symbols tree.elements, env.resolves symbol = true) ∧
    (∀ error, generate tree env = .error error ↔
      ∃ symbol ∈ Element.symbols tree.elements, error = .unresolved symbol ∧
        env.resolves symbol = false ∧
        ∀ other ∈ Element.symbols tree.elements, env.resolves other = false →
          other = symbol ∨ symbol.span.start < other.span.start) ∧
    (∀ symbol ∈ Element.symbols tree.elements,
      Text.slice? symbol.span.start symbol.span.stop source.toList = some symbol.name.toList) := by
  have same : tree.symbols = template.symbols := by
    rcases made with rfl | ⟨names, rfl⟩
    · rfl
    · rw [awaiting_eq_revise, symbols_revise]
  have ascending := symbols_ascend parsed
  rw [← same] at ascending
  simp only [← tree.symbols_perm.mem_iff]
  refine ⟨?_, fun error => ?_, fun symbol within => slice_symbol parsed (same ▸ within)⟩
  · exact ⟨fun ⟨_, generated⟩ => Environments.resolvesAll_of_generate generated,
      fun resolved => ⟨_, generate_of_resolves resolved⟩⟩
  · rw [generate_eq_error]
    simp only [find?_eq_some_iff_least ascending, Bool.not_eq_true']
    exact exists_congr fun symbol => and_left_comm

/-- In `{{ a | f(b | g) | h }}` the last filter is the first element that is missing, but the one in
the argument is further to the left. -/
theorem unresolved_leftmost_nested :
    let env : RuntimeEnvironment := { filters := [("f", ⟨false, fun value _ => .ok value⟩)] }
    let source := "\x7b\x7b a | f(b | g) | h \x7d\x7d"
    ∃ template, parse [] source = .ok template ∧
      Element.symbols (template.awaiting ["h"]).elements =
        [⟨.filter, "h", ⟨18, 19⟩⟩, ⟨.filter, "f", ⟨7, 8⟩⟩, ⟨.filter, "g", ⟨13, 14⟩⟩] ∧
      generate (template.awaiting ["h"]) env = .error (.unresolved ⟨.filter, "g", ⟨13, 14⟩⟩) := by
  intro env source
  have reads : (parse [] source).toOption.any (fun template =>
      decide (Element.symbols (template.awaiting ["h"]).elements =
        [⟨.filter, "h", ⟨18, 19⟩⟩, ⟨.filter, "f", ⟨7, 8⟩⟩, ⟨.filter, "g", ⟨13, 14⟩⟩])) = true := by
    decide +kernel
  obtain ⟨template, parsed, reads⟩ := (Option.any_eq_true ..).mp reads
  have symbols := of_decide_eq_true reads
  have parsed := eq_ok_iff_toOption.mpr parsed
  obtain ⟨-, fails, -⟩ := unresolved_leftmost parsed (Or.inr ⟨["h"], rfl⟩) env
  refine ⟨template, parsed, symbols, (fails _).mpr ?_⟩
  rw [symbols]
  exact ⟨_, by simp, rfl, rfl, by decide⟩

end Template

end QueryTemplate
