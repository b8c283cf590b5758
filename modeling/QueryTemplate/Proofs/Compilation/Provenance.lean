import QueryTemplate.Proofs.Compilation.Loading
import QueryTemplate.Proofs.Compilation.Safety
import QueryTemplate.Proofs.Execution.Authored

set_option autoImplicit false

/- No data ever reaches the text of a statement. With the built-in extensions, what is left of an
exported statement once its placeholders are cut out consists of pieces of the text nodes of the
template. -/

namespace QueryTemplate

section Faithful

variable {source : String → Prop}

/-- A request exports its trimmed body under a name. -/
theorem Catalog.Request.faithful_run : TagRunner.Faithful source Catalog.Request.run := by
  intro context effects inner _ ran
  have authored : (context.body.getD .empty).Authored source := by
    cases body : context.body with
    | none => exact .empty
    | some builder => exact inner builder body
  have renamed (requested : String) := authored.trim.rename (some requested)
  unfold run at ran
  split at ran
  next requested _ _ =>
    split at ran
    next => cases ran
    next =>
      dsimp only at ran
      split at ran
      · cases ran
        exact List.forall_mem_cons.mpr
          ⟨renamed requested, List.forall_mem_singleton.mpr (renamed requested)⟩
      · cases ran
        exact List.forall_mem_singleton.mpr (renamed requested)
  next => cases ran

theorem Catalog.Raise.faithful_run : TagRunner.Faithful source Catalog.Raise.run := by
  intro context effects _ _ ran
  unfold run at ran
  split at ran <;> cases ran

theorem faithful_of_mem_catalog {name : String} {run : TagRunner}
    (listed : .tagRunner name run ∈ catalog) : run.Faithful source := by
  rcases tagRunner_mem_catalog.mp listed with ⟨-, rfl⟩ | ⟨-, rfl⟩
  · exact Catalog.Request.faithful_run
  · exact Catalog.Raise.faithful_run

end Faithful

theorem Template.writes_of_revise {r : Revision} {template : Template} {content : String}
    (written : Element.Writes (elements (template.revise r)) content) :
    Element.Writes (elements template) content := by
  obtain ⟨span, within⟩ := written
  rw [elements_revise] at within
  obtain ⟨element, listed, same⟩ := List.mem_map.mp within
  cases element with
  | expr value => cases same
  | node value =>
      cases value with
      | text other place =>
          cases same
          exact ⟨span, listed⟩
      | branch arms otherwise place => cases otherwise <;> cases same
      | tag name nameSpan args body place => cases body <;> cases same
      | _ => cases same

/-- Of a builder that a template exports, the statement is woven from texts and placeholders, and
all of the texts are pieces of text nodes of the template. -/
theorem Environments.compile_authored {extensions : List Extension}
    (builtIn : ∀ extension ∈ extensions, extension ∈ catalog) {envs : Environments}
    (loads : ofExtensions extensions = .ok envs) {source : String} {compiled : Compiled}
    (short : source.length < 2 ^ 64) (compiles : envs.compile source = .ok compiled) :
    ∃ template program, Template.parse envs.compileTime.tags source = .ok template ∧
      Program.decode compiled.code = .ok program ∧
      ∀ strict members fuel builder,
        Machine.runProgram envs.runtime strict fuel program (.object members) =
          .finished (some builder) →
        Text.Authored (Element.Writes (Template.elements template)) builder.cut ∧
          ∃ segments : Segments, builder = segments.render builder.name ∧
            segments.Authored (Element.Writes (Template.elements template)) ∧
            builder.cut = segments.text := by
  obtain ⟨tree, read, decoded, -⟩ := decode_compile short compiles
  refine ⟨tree, _, read, decoded, ?_⟩
  intro strict members fuel builder finished
  have faithful : Setting.Authored (Element.Writes (Template.elements tree))
      ⟨Template.program (Template.revise (Revision.reading envs.asyncFilters) tree), envs.runtime,
        strict, members⟩ :=
    { texts := fun _ within => Template.writes_of_revise (Template.writes_of_program within)
      tags := fun _ _ found => faithful_of_mem_catalog (builtIn _ (tags_ofExtensions loads found)) }
  obtain ⟨segments, whole, authored⟩ := Machine.Authored.start.run faithful finished
  have cut : builder.cut = segments.text := by rw [whole, Segments.cut_render]
  exact ⟨cut ▸ authored.text, segments, whole, authored, cut⟩

/-- An object that looks like a builder is bound all the same. -/
theorem Environments.compile_authored_lookalike :
    let source := "\x7b% req 'a' %\x7d x = \x7b\x7b v \x7d\x7d \x7b% endreq %\x7d"
    let members := [("v", Json.object [("name", .string "a"), ("statement", .string "; --")])]
    ∃ envs compiled template program builder, ofExtensions catalog = .ok envs ∧
      envs.compile source = .ok compiled ∧
      Template.parse envs.compileTime.tags source = .ok template ∧
      Program.decode compiled.code = .ok program ∧
      Machine.runProgram envs.runtime true 20 program (.object members) =
        .finished (some builder) ∧
      builder.statement = "x = $1".toList ∧
      Text.Authored (Element.Writes (Template.elements template)) builder.cut := by
  intro source members
  have finishes : (ofExtensions catalog).toOption.any (fun envs =>
      (envs.compile source).toOption.isSome &&
        (Template.parse envs.compileTime.tags source).toOption.any fun tree =>
          match Machine.runProgram envs.runtime true 20
            (Template.program (Template.revise (Revision.reading envs.asyncFilters) tree))
            (.object members) with
          | .finished (some builder) => builder.statement == "x = $1".toList
          | .finished none => false
          | .failed _ => false
          | .outOfFuel => false) = true := by decide +kernel
  obtain ⟨envs, loads, finishes⟩ := (Option.any_eq_true ..).mp finishes
  have loads := eq_ok_iff_toOption.mpr loads
  rw [Bool.and_eq_true] at finishes
  obtain ⟨compiled, compiles⟩ := Option.isSome_iff_exists.mp finishes.1
  have compiles := eq_ok_iff_toOption.mpr compiles
  obtain ⟨tree, parsed, written, -⟩ := decode_compile (by decide) compiles
  obtain ⟨template, program, read, decoded, authored⟩ :=
    compile_authored (fun _ listed => listed) loads (by decide) compiles
  have runs := finishes.2
  rw [parsed, Except.toOption, Option.any_some] at runs
  rw [Except.ok.inj (written.symm.trans decoded)] at runs
  split at runs
  next builder finished =>
    exact ⟨envs, compiled, template, program, builder, loads, compiles, read, decoded, finished,
      eq_of_beq runs, (authored true members 20 builder finished).1⟩
  all_goals cases runs

end QueryTemplate
