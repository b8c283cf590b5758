import QueryTemplate.Catalog.Basic
import QueryTemplate.Proofs.Code.Rereading
import QueryTemplate.Proofs.Compilation.RoundTrip
import QueryTemplate.Proofs.Template.Served

set_option autoImplicit false

/- Compiled code never goes wrong. It can be read, its run ends and exports a builder, unless the
data or an extension makes it fail. -/

namespace QueryTemplate

/-- The literal that the text of a literal's value is read as. -/
def Literal.reread : Literal → Literal
  | .float x =>
    if x.isFinite then
      match (Number.float x).reread? with
      | some (.float y) => .float y
      | _ => .float x
    else .float x
  | literal => literal

theorem Literal.reread?_const {literal : Literal} (inRange : literal.InRange) :
    (Instr.const literal.toJson).reread? = some (.const literal.reread.toJson) := by
  cases literal with
  | float x =>
      by_cases finite : x.isFinite
      · obtain ⟨y, read, finite'⟩ := Number.reread?_float finite
        simp only [toJson, reread, finite, ↓reduceIte, read, finite', Instr.reread?,
          Json.ofText?_print, Json.document, Json.Document.toJson?, Option.map_some]
      · simp only [toJson, reread, finite, Bool.false_eq_true, ↓reduceIte]
        refine (Instr.reread?_eq_self _).mpr fun value same => ?_
        cases same
        exact trivial
  | _ =>
      refine (Instr.reread?_eq_self _).mpr fun value same => ?_
      cases same
      exact (Literal.faithful_toJson inRange _).mpr fun x same => by cases same

/-- Marks the filters of given names, and changes each literal to the one that its text is read
as. -/
def Revision.reading (names : List String) : Revision where
  literal := Literal.reread
  awaited := fun awaited name => awaited || names.contains name

theorem Revision.awaiting_rereadAs (names : List String) :
    (awaiting names).RereadAs (reading names) where
  literal := fun _ inRange => Literal.reread?_const inRange
  awaited := rfl

theorem Program.decode_of_rereads {program other : Program} (addressed : program.Addressed)
    (rereads : Rereads program other) : decode program.encode = .ok other := by
  rw [decode, encode, String.toList_ofList, eq_ok_iff_toOption,
    Listing.decodeChars_encodeChars addressed.fits addressed.inside, rereads]

namespace Environments

variable {envs : Environments} {source : String}

theorem mem_asyncFilters {name : String} {filter : FilterRunner}
    (found : Table.get? envs.runtime.filters name = some filter) (isAsync : filter.isAsync) :
    name ∈ envs.asyncFilters := by
  have listed : name ∈ envs.runtime.asyncFilters := by
    obtain ⟨before, after, whole, -⟩ := List.lookup_eq_some_iff.mp found
    refine List.mem_map.mpr ⟨(name, filter), List.mem_filter.mpr ⟨?_, isAsync⟩, rfl⟩
    rw [whole]
    exact List.mem_append_right _ List.mem_cons_self
  unfold asyncFilters
  by_cases announced : name ∈ envs.compileTime.asyncFilters
  · exact List.mem_append_left _ announced
  · refine List.mem_append_right _ (List.mem_filter.mpr ⟨listed, ?_⟩)
    simp [announced]

theorem reading_awaitsAll (envs : Environments) :
    (Revision.reading envs.asyncFilters).AwaitsAll envs.runtime := by
  intro awaited name filter found isAsync
  simp [Revision.reading, mem_asyncFilters found isAsync]

theorem resolvesAll_of_generate {template : Template} {env : RuntimeEnvironment}
    {program : Program} (generated : generate template env = .ok program) :
    env.ResolvesAll (Template.symbols template) := by
  unfold generate at generated
  split at generated
  next => cases generated
  next absent =>
    intro symbol within
    simpa using List.find?_eq_none.mp absent symbol within

/-- The code of a source is read as the program of its tree, other literals aside, and the
environment serves that tree. -/
theorem decode_compile {compiled : Compiled} (short : source.length < 2 ^ 64)
    (compiles : envs.compile source = .ok compiled) :
    ∃ tree, Template.parse envs.compileTime.tags source = .ok tree ∧
      Program.decode compiled.code =
        .ok (Template.program (Template.revise (Revision.reading envs.asyncFilters) tree)) ∧
      Node.ListServed envs.runtime (Template.revise (Revision.reading envs.asyncFilters) tree) := by
  obtain ⟨template, analyzed, generated, written⟩ := compile_eq_ok compiles
  obtain ⟨addressed, -⟩ := analyze_covers analyzed short
  obtain ⟨tree, read, rfl⟩ := analyze_eq_ok analyzed
  have covered := Template.parse_covers read
  have resolved := resolvesAll_of_generate generated
  rw [Template.awaiting_eq_revise] at addressed resolved written
  rw [Template.symbols_revise] at resolved
  refine ⟨tree, read, ?_, Node.listServed_revise (reading_awaitsAll envs) tree resolved⟩
  rw [written]
  exact Program.decode_of_rereads addressed
    (Template.rereads_program (Revision.awaiting_rereadAs _) tree covered.literals)

end Environments

end QueryTemplate
