import QueryTemplate.Proofs.Compilation.Assembly
import QueryTemplate.Proofs.Compilation.Safety
import QueryTemplate.Proofs.Template.Extending

set_option autoImplicit false

/- Loading one more extension. A template that does not name it has the same code, and the same
metadata but for what the extension itself has to say. -/

namespace QueryTemplate

theorem TagGrammars.closesBlock_eq_false {grammars : TagGrammars} {name : String}
    (free : ¬ "end".toList <+: name.toList) : grammars.closesBlock name = false := by
  unfold closesBlock
  split
  next base spelled =>
    refine absurd ?_ free
    rw [spelled]
    exact ⟨base, rfl⟩
  next => rfl

/-- No tag that can be loaded looks like a closer. -/
theorem not_prefix_of_checkName {name : String} (allowed : checkName .tag name = .ok ()) :
    ¬ "end".toList <+: name.toList := by
  intro looks
  unfold checkName at allowed
  have starts : "end".toList.isPrefixOf name.toList = true := List.isPrefixOf_iff_prefix.mpr looks
  rw [starts] at allowed
  split at allowed <;> simp at allowed

namespace CompileEnvironment

theorem mem_asyncFilters_iff {env : CompileEnvironment} {name : String} :
    name ∈ env.asyncFilters ↔ (name, true) ∈ env.filters := by
  simp [asyncFilters]

end CompileEnvironment

namespace RuntimeEnvironment

theorem mem_asyncFilters_iff {env : RuntimeEnvironment} {name : String} :
    name ∈ env.asyncFilters ↔ ∃ filter, (name, filter) ∈ env.filters ∧ filter.isAsync := by
  simp [asyncFilters]

end RuntimeEnvironment

theorem generate_of_resolves {template : Template} {env : RuntimeEnvironment}
    (resolved : env.ResolvesAll (Template.symbols template)) :
    generate template env = .ok (Template.program template) := by
  have absent : (Template.symbols template).find? (fun symbol => !env.resolves symbol) = none := by
    rw [List.find?_eq_none]
    intro symbol within
    simpa using resolved symbol within
  rw [generate, absent]

namespace Environments

theorem mem_asyncFilters_iff {envs : Environments} {name : String} :
    name ∈ envs.asyncFilters ↔
      name ∈ envs.compileTime.asyncFilters ∨ name ∈ envs.runtime.asyncFilters := by
  by_cases announced : name ∈ envs.compileTime.asyncFilters <;> simp [asyncFilters, announced]

section Add

variable {envs : Environments} {extension : Extension} {name : String}

theorem tags_add_of_ne (own : extension.OwnName) (away : name ≠ extension.name) :
    Table.get? (envs.add extension).compileTime.tags name = Table.get? envs.compileTime.tags name := by
  cases extension with
  | tagBuilder announced grammar observer =>
      have other : name ≠ grammar.name := own ▸ away
      exact Table.get?_insert_of_ne _ _ other
  | _ => rfl

theorem asyncFilters_add_of_ne (away : name ≠ extension.name) :
    name ∈ (envs.add extension).asyncFilters ↔ name ∈ envs.asyncFilters := by
  simp only [mem_asyncFilters_iff, CompileEnvironment.mem_asyncFilters_iff,
    RuntimeEnvironment.mem_asyncFilters_iff]
  cases extension with
  | filterBuilder announced isAsync observer =>
      exact or_congr_left (Table.mem_insert_of_ne isAsync away)
  | filterRunner announced runner =>
      refine or_congr_right (exists_congr fun filter => and_congr_left fun _ => ?_)
      exact Table.mem_insert_of_ne runner away
  | _ => rfl

theorem asyncFilters_watch (envs : Environments) (extension : Extension) :
    (envs.watch extension).asyncFilters = envs.asyncFilters := by
  rw [asyncFilters, compileTime_watch, runtime_watch, asyncFilters]

theorem resolves_add_of_ne {symbol : Symbol} (away : symbol.name ≠ extension.name) :
    (envs.add extension).runtime.resolves symbol = envs.runtime.resolves symbol := by
  unfold RuntimeEnvironment.resolves RuntimeEnvironment.hasTag RuntimeEnvironment.hasFilter
    Table.contains
  cases extension with
  | tagRunner announced runner =>
      have other : symbol.name ≠ announced := away
      simp only [add, Table.get?_insert_of_ne _ _ other]
  | filterRunner announced runner =>
      have other : symbol.name ≠ announced := away
      simp only [add, Table.get?_insert_of_ne _ _ other]
  | _ => rfl

end Add

variable {extensions : List Extension} {extension : Extension} {envs extended : Environments}

theorem named_ofExtensions (loads : ofExtensions extensions = .ok envs) :
    envs.compileTime.tags.Named :=
  fun _ _ found => (grammars_ofExtensions loads found).1

/-- A tag with behaviour at run time does not look like a closer. -/
theorem not_prefix_of_resolves (loads : ofExtensions extensions = .ok envs) {symbol : Symbol}
    (tag : symbol.kind = .tag) (resolved : envs.runtime.resolves symbol) :
    ¬ "end".toList <+: symbol.name.toList := by
  unfold RuntimeEnvironment.resolves at resolved
  rw [tag] at resolved
  obtain ⟨run, found⟩ := Option.isSome_iff_exists.mp resolved
  have named := (ofExtensions_eq_ok.mp loads).1.named _ (tags_ofExtensions loads found)
  exact not_prefix_of_checkName named

theorem ofExtensions_concat (loads : ofExtensions extensions = .ok envs)
    (loads' : ofExtensions (extensions ++ [extension]) = .ok extended) :
    extended = (envs.add extension).watch extension := by
  rw [(ofExtensions_eq_ok.mp loads').2, (ofExtensions_eq_ok.mp loads).2, assembled_concat]

/-- The grammars agree on tags that have another name and behaviour at run time. -/
theorem agree_add (loads : ofExtensions extensions = .ok envs) (own : extension.OwnName)
    {symbols : List Symbol} (resolved : envs.runtime.ResolvesAll symbols)
    (unused : ∀ symbol ∈ symbols, symbol.name ≠ extension.name) :
    envs.compileTime.tags.Agree (envs.add extension).compileTime.tags symbols where
  found symbol within _ := tags_add_of_ne own (unused symbol within)
  closes symbol within tag := by
    have free := not_prefix_of_resolves loads tag (resolved symbol within)
    rw [TagGrammars.closesBlock_eq_false free, TagGrammars.closesBlock_eq_false free]

/-- Of a source that compiles and does not name an extension, the code stays the same when the
extension is loaded too, and so do all keys of the metadata that the extension does not give. -/
theorem compile_extended (loads : ofExtensions extensions = .ok envs)
    (loads' : ofExtensions (extensions ++ [extension]) = .ok extended) (own : extension.OwnName)
    {source : String} {template : Template} {compiled : Compiled}
    (parsed : Template.parse envs.compileTime.tags source = .ok template)
    (unused : ∀ symbol ∈ Template.symbols template, symbol.name ≠ extension.name)
    (compiles : envs.compile source = .ok compiled) :
    ∃ recompiled, extended.compile source = .ok recompiled ∧ recompiled.code = compiled.code ∧
      ∀ key, (∀ value, extension.entry? (Template.elements template) ≠ some (key, value)) →
        Table.get? recompiled.metadata key = Table.get? compiled.metadata key := by
  have whole := ofExtensions_concat loads loads'
  obtain ⟨marked, analyzed, generated, written⟩ := compile_eq_ok compiles
  obtain ⟨tree, read, rfl⟩ := analyze_eq_ok analyzed
  cases parsed.symm.trans read
  have symbols (names : List String) :
      Template.symbols (template.awaiting names) = Template.symbols template := by
    rw [Template.awaiting_eq_revise, Template.symbols_revise]
  have resolved := resolvesAll_of_generate generated
  rw [symbols] at resolved
  have parsed' : Template.parse extended.compileTime.tags source = .ok template := by
    have agree := agree_add loads own resolved unused
    rw [← compileTime_watch (envs.add extension) extension, ← whole] at agree
    exact Template.parse_of_agree (named_ofExtensions loads) (named_ofExtensions loads') agree parsed
  have marks : template.awaiting extended.asyncFilters = template.awaiting envs.asyncFilters := by
    refine Template.awaiting_congr fun symbol within _ => ?_
    rw [Bool.eq_iff_iff, List.contains_iff_mem, List.contains_iff_mem, whole, asyncFilters_watch]
    exact asyncFilters_add_of_ne (unused symbol within)
  have generated' : generate (template.awaiting envs.asyncFilters) extended.runtime =
      .ok (Template.program (template.awaiting envs.asyncFilters)) := by
    apply generate_of_resolves
    intro symbol within
    rw [symbols] at within
    rw [whole, runtime_watch, resolves_add_of_ne (unused symbol within)]
    exact resolved symbol within
  refine ⟨⟨compiled.code, extended.metadata template⟩, ?_, rfl, ?_⟩
  · rw [compile, analyze, parsed']
    dsimp only
    rw [marks, generated', written]
  · intro key silent
    rw [metadata_compile parsed compiles, (ofExtensions_eq_ok.mp loads').2,
      (ofExtensions_eq_ok.mp loads).2]
    exact get?_metadata_concat extensions template silent

/-- A block tag that the template does not have, and that says something all the same. -/
theorem compile_extended_catalog :
    let notes : Hooks := { Hooks.idle with contribution := fun _ => some ("notes", .array []) }
    let extension := Extension.tagBuilder "note" ⟨"note", true⟩ ⟨.all, notes⟩
    let source := "\x7b% req 'a' %\x7d\x7b\x7b v | upper \x7d\x7d\x7b% endreq %\x7d"
    ∃ envs extended compiled recompiled, ofExtensions catalog = .ok envs ∧
      ofExtensions (catalog ++ [extension]) = .ok extended ∧
      envs.compile source = .ok compiled ∧ extended.compile source = .ok recompiled ∧
      recompiled.code = compiled.code ∧
      Table.get? recompiled.metadata Catalog.Request.metadataKey =
        Table.get? compiled.metadata Catalog.Request.metadataKey := by
  intro notes extension source
  have runs : (ofExtensions catalog).toOption.any (fun envs =>
      (ofExtensions (catalog ++ [extension])).toOption.isSome &&
        (envs.compile source).toOption.isSome &&
        (Template.parse envs.compileTime.tags source).toOption.any fun template =>
          (Template.symbols template).all (·.name != "note")) = true := by decide +kernel
  obtain ⟨envs, loads, runs⟩ := (Option.any_eq_true ..).mp runs
  have loads := eq_ok_iff_toOption.mpr loads
  simp only [Bool.and_eq_true] at runs
  obtain ⟨⟨succeeds, compiles⟩, parses⟩ := runs
  obtain ⟨extended, loads'⟩ := Option.isSome_iff_exists.mp succeeds
  have loads' := eq_ok_iff_toOption.mpr loads'
  obtain ⟨compiled, compiles⟩ := Option.isSome_iff_exists.mp compiles
  have compiles := eq_ok_iff_toOption.mpr compiles
  obtain ⟨template, parsed, unused⟩ := (Option.any_eq_true ..).mp parses
  have parsed := eq_ok_iff_toOption.mpr parsed
  have unused : ∀ symbol ∈ Template.symbols template, symbol.name ≠ extension.name :=
    fun symbol within => bne_iff_ne.mp (List.all_eq_true.mp unused symbol within)
  obtain ⟨recompiled, compiles', same, kept⟩ :=
    compile_extended loads loads' rfl parsed unused compiles
  refine ⟨envs, extended, compiled, recompiled, loads, loads', compiles, compiles', same,
    kept Catalog.Request.metadataKey fun value gives => ?_⟩
  have key : some "notes" = some Catalog.Request.metadataKey := congrArg (Option.map Prod.fst) gives
  exact absurd key (by decide)

end Environments

end QueryTemplate
