import QueryTemplate.Proofs.Compilation.Listed
import QueryTemplate.Proofs.Compilation.Safety

set_option autoImplicit false

/- The metadata of a template covers its executions. With the built-in extensions, and as far as the
source spells codes and names out, every code that is raised and every name that is exported is
listed. -/

namespace QueryTemplate

namespace Catalog

theorem Request.candid_run : TagRunner.Candid name run where
  raised context code failed := by
    unfold run at failed
    split at failed
    next =>
      split at failed
      next => cases failed
      next =>
        dsimp only at failed
        split at failed <;> cases failed
    next => cases failed
  named context effects ran _ := by
    unfold run at ran
    split at ran
    next requested _ given =>
      split at ran
      next => cases ran
      next =>
        -- a request is delivered under the name that it asks for
        have own (builder : Builder) : (TagEffect.deliver
            { builder with name := some requested }).Names fun name =>
              Request.name = Request.name ∧ context.args.head? = some (.string name) := by
          rintro _ ⟨⟩
          exact ⟨rfl, congrArg List.head? given⟩
        dsimp only at ran
        split at ran
        · cases ran
          exact List.forall_mem_cons.mpr ⟨trivial, List.forall_mem_singleton.mpr (own _)⟩
        · cases ran
          exact List.forall_mem_singleton.mpr trivial
    next => cases ran

theorem Raise.candid_run : TagRunner.Candid name run where
  raised context code failed := by
    unfold run at failed
    split at failed
    next given =>
      cases failed
      exact ⟨rfl, congrArg List.head? given⟩
    next => cases failed
  named context effects ran _ := by
    unfold run at ran
    split at ran <;> cases ran

theorem LetterCase.candid_onStrings (convert : List Char → List Char) :
    (onStrings convert).Candid := by
  intro target args code
  unfold onStrings
  dsimp only
  split <;> exact fun failed => nomatch failed

theorem Required.candid_transform : FilterRunner.Candid ⟨false, transform⟩ := by
  intro target args code
  dsimp only
  unfold transform
  split
  · split <;> exact fun failed => nomatch failed
  · exact fun failed => nomatch failed

end Catalog

theorem TagRunner.candid_of_mem_catalog {tag : String} {run : TagRunner}
    (listed : .tagRunner tag run ∈ catalog) : run.Candid tag := by
  rcases tagRunner_mem_catalog.mp listed with ⟨rfl, rfl⟩ | ⟨rfl, rfl⟩
  · exact Catalog.Request.candid_run
  · exact Catalog.Raise.candid_run

theorem FilterRunner.candid_of_mem_catalog {name : String} {filter : FilterRunner}
    (listed : .filterRunner name filter ∈ catalog) : filter.Candid := by
  rcases filterRunner_mem_catalog.mp listed with ⟨-, rfl⟩ | ⟨-, rfl⟩ | ⟨-, rfl⟩
  · exact Catalog.LetterCase.candid_onStrings Text.upper
  · exact Catalog.LetterCase.candid_onStrings Text.lower
  · exact Catalog.Required.candid_transform

theorem Environments.candid_ofExtensions {extensions : List Extension}
    (builtIn : ∀ extension ∈ extensions, extension ∈ catalog) {envs : Environments}
    (loads : ofExtensions extensions = .ok envs) : envs.runtime.Candid where
  tags _ _ found := TagRunner.candid_of_mem_catalog (builtIn _ (tags_ofExtensions loads found))
  filters _ _ found :=
    FilterRunner.candid_of_mem_catalog (builtIn _ (filters_ofExtensions loads found))

section Reading

variable (names : List String)

/-- Only string literals are read as strings. -/
theorem Literal.reread_eq_string {literal : Literal} {text : String} :
    literal.reread = .string text ↔ literal = .string text := by
  cases literal with
  | float x =>
      refine iff_of_false (fun same => ?_) fun same => nomatch same
      rw [reread] at same
      split at same
      · split at same <;> cases same
      · cases same
  | _ => exact Iff.rfl

theorem Expr.revise_eq_string (expr : Expr) (text : String) (place : Span) :
    expr.revise (.reading names) = .literal (.string text) place ↔
      expr = .literal (.string text) place := by
  cases expr with
  | literal value span =>
      simp only [Expr.revise, Expr.literal.injEq, and_congr_left_iff]
      exact fun _ => Literal.reread_eq_string
  | _ => exact iff_of_false (fun same => nomatch same) fun same => nomatch same

theorem Arg.first_revise (args : List Arg) :
    (args.map (·.revise (.reading names))).findSome? Arg.positional? =
      (args.findSome? Arg.positional?).map (·.revise (.reading names)) := by
  rw [List.findSome?_map, List.map_findSome?]
  refine congrArg (List.findSome? · args) (funext fun arg => ?_)
  cases arg <;> rfl

theorem Arg.spelled?_revise (args : List Arg) :
    Arg.spelled? (args.map (·.revise (.reading names))) = Arg.spelled? args := by
  apply Option.ext
  intro text
  rw [Arg.spelled?_eq_some, Arg.spelled?_eq_some, Arg.first_revise]
  refine exists_congr fun place => ?_
  rw [Option.map_eq_some_iff]
  constructor
  · rintro ⟨expr, first, same⟩
    rw [first, (Expr.revise_eq_string names expr text place).mp same]
  · exact fun first => ⟨_, first, (Expr.revise_eq_string names _ text place).mpr rfl⟩

theorem Arg.isSpelled_revise (args : List Arg) :
    Arg.isSpelled (args.map (·.revise (.reading names))) = Arg.isSpelled args := by
  rw [Arg.isSpelled, Arg.first_revise, Arg.spelled?_revise, Option.all_map]
  rfl

theorem Element.isSpelled_revise (element : Element) :
    (element.revise (.reading names)).isSpelled = element.isSpelled := by
  cases element with
  | expr value => rfl
  | node value =>
      cases value with
      | branch arms otherwise span => cases otherwise <;> rfl
      | tag name nameSpan args body span =>
          cases body <;>
            simp only [Element.revise, Node.revise, isSpelled, Arg.isSpelled_revise]
      | _ => rfl

theorem Template.spells_of_revise {template : Template} {tag text : String}
    (spells : Element.Spells (elements (template.revise (.reading names))) tag text) :
    Element.Spells (elements template) tag text := by
  obtain ⟨nameSpan, args, body, span, within, spelled⟩ := spells
  rw [elements_revise] at within
  obtain ⟨element, listed, same⟩ := List.mem_map.mp within
  cases element with
  | expr value => cases same
  | node value =>
      cases value with
      | tag name place given inside around =>
          cases inside <;> cases same
          all_goals
            rw [Arg.spelled?_revise] at spelled
            exact ⟨_, _, _, _, listed, spelled⟩
      | branch arms otherwise place => cases otherwise <;> cases same
      | _ => cases same

end Reading

/-- With the built-in extensions the metadata of a template covers its executions. If the source
spells out what its tags raise and request, the metadata lists every code that is raised and every
name that a builder is exported under, whatever the data. -/
theorem Environments.compile_discloses {extensions : List Extension}
    (builtIn : ∀ extension ∈ extensions, extension ∈ catalog) {envs : Environments}
    (loads : ofExtensions extensions = .ok envs) {source : String} {template : Template}
    {compiled : Compiled} (short : source.length < 2 ^ 64)
    (parsed : Template.parse envs.compileTime.tags source = .ok template)
    (spelled : ∀ element ∈ Template.elements template, element.isSpelled)
    (compiles : envs.compile source = .ok compiled) :
    ∃ program, Program.decode compiled.code = .ok program ∧ ∀ strict members fuel,
      let result := Machine.runProgram envs.runtime strict fuel program (.object members)
      (∀ code, result.raised? = some code → Catalog.Raise.Lists compiled.metadata code) ∧
        ∀ name, result.exportedName? = some name →
          Catalog.Request.Lists compiled.metadata name := by
  obtain ⟨tree, read, decoded, -⟩ := decode_compile short compiles
  rw [parsed] at read
  cases read
  refine ⟨_, decoded, fun strict members fuel => ?_⟩
  have candid := candid_ofExtensions builtIn loads
  have registered := registered_parse parsed
  have reread : ∀ element ∈ Template.elements (template.revise (.reading envs.asyncFilters)),
      element.isSpelled := by
    rw [Template.elements_revise]
    refine List.forall_mem_map.mpr fun element listed => ?_
    rw [Element.isSpelled_revise]
    exact spelled element listed
  rw [metadata_compile parsed compiles]
  constructor
  · intro code raised
    have spells := Template.spells_of_raised candid reread raised
    exact (lists_raised_iff builtIn loads registered code).mpr (Template.spells_of_revise _ spells)
  · intro name exported
    have spells := Template.spells_of_exported candid reread exported
    exact (lists_requested_iff builtIn loads registered name).mpr
      (Template.spells_of_revise _ spells)

/-- One branch of the template exports a request, the other one raises a code. -/
theorem Environments.compile_discloses_branches :
    let source := "\x7b% if id %\x7d\x7b% req 'a' %\x7d\x7b\x7b id \x7d\x7d\x7b% endreq %\x7d" ++
      "\x7b% else %\x7d\x7b% error 'GONE' %\x7d\x7b% endif %\x7d"
    ∃ envs template compiled program, ofExtensions catalog = .ok envs ∧
      Template.parse envs.compileTime.tags source = .ok template ∧
      (∀ element ∈ Template.elements template, element.isSpelled) ∧
      envs.compile source = .ok compiled ∧ Program.decode compiled.code = .ok program ∧
      ((Machine.runProgram envs.runtime true 20 program (.object [("id", .null)])).raised? =
        some "GONE" ∧ Catalog.Raise.Lists compiled.metadata "GONE") ∧
      (Machine.runProgram envs.runtime true 20 program
        (.object [("id", .bool true)])).exportedName? = some "a" ∧
        Catalog.Request.Lists compiled.metadata "a" := by
  intro source
  have runs : (ofExtensions catalog).toOption.any (fun envs =>
      (envs.compile source).toOption.isSome &&
        (Template.parse envs.compileTime.tags source).toOption.any fun tree =>
          let program := Template.program (tree.revise (Revision.reading envs.asyncFilters))
          (Template.elements tree).all Element.isSpelled &&
            (Machine.runProgram envs.runtime true 20 program
              (.object [("id", .null)])).raised? == some "GONE" &&
            (Machine.runProgram envs.runtime true 20 program
              (.object [("id", .bool true)])).exportedName? == some "a") = true := by
    decide +kernel
  obtain ⟨envs, loads, runs⟩ := (Option.any_eq_true ..).mp runs
  have loads := eq_ok_iff_toOption.mpr loads
  obtain ⟨succeeds, runs⟩ := Bool.and_eq_true_iff.mp runs
  obtain ⟨compiled, compiles⟩ := Option.isSome_iff_exists.mp succeeds
  have compiles := eq_ok_iff_toOption.mpr compiles
  obtain ⟨template, parsed, runs⟩ := (Option.any_eq_true ..).mp runs
  have parsed := eq_ok_iff_toOption.mpr parsed
  simp only [Bool.and_eq_true, beq_iff_eq] at runs
  obtain ⟨⟨spelled, raised⟩, exported⟩ := runs
  have spelled := List.all_eq_true.mp spelled
  obtain ⟨program, decoded, discloses⟩ := compile_discloses (fun _ listed => listed) loads
    (by decide) parsed spelled compiles
  obtain ⟨tree, read, written, -⟩ := decode_compile (by decide) compiles
  cases parsed.symm.trans read
  cases written.symm.trans decoded
  exact ⟨envs, template, compiled, _, loads, parsed, spelled, compiles, decoded,
    ⟨raised, (discloses true _ 20).1 _ raised⟩, exported, (discloses true _ 20).2 _ exported⟩

end QueryTemplate
