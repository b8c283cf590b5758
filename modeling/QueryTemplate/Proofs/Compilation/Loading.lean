import QueryTemplate.Catalog.Basic

set_option autoImplicit false

/- Environments by the extensions that they were loaded from: every tag, filter and watcher there is
that of an extension, and a tag that was announced is watched as its extension asks. -/

namespace QueryTemplate

theorem catalog_eq : catalog = [
    .tagBuilder Catalog.Request.name ⟨Catalog.Request.name, true⟩ ⟨.all, Catalog.Request.hooks⟩,
    .tagRunner Catalog.Request.name Catalog.Request.run,
    .tagBuilder Catalog.Raise.name ⟨Catalog.Raise.name, false⟩ ⟨.all, Catalog.Raise.hooks⟩,
    .tagRunner Catalog.Raise.name Catalog.Raise.run,
    .filterBuilder "upper" false .idle,
    .filterRunner "upper" (Catalog.LetterCase.onStrings Text.upper),
    .filterBuilder "lower" false .idle,
    .filterRunner "lower" (Catalog.LetterCase.onStrings Text.lower),
    .filterBuilder Catalog.Required.name false ⟨.all, Catalog.Required.hooks⟩,
    .filterRunner Catalog.Required.name ⟨false, Catalog.Required.transform⟩] := rfl

theorem tagBuilder_mem_catalog {announced : String} {grammar : TagGrammar} {observer : Observer} :
    .tagBuilder announced grammar observer ∈ catalog ↔
      announced = Catalog.Request.name ∧ grammar = ⟨Catalog.Request.name, true⟩ ∧
          observer = ⟨.all, Catalog.Request.hooks⟩ ∨
        announced = Catalog.Raise.name ∧ grammar = ⟨Catalog.Raise.name, false⟩ ∧
          observer = ⟨.all, Catalog.Raise.hooks⟩ := by
  simp [catalog_eq]

theorem tagRunner_mem_catalog {name : String} {run : TagRunner} :
    .tagRunner name run ∈ catalog ↔
      name = Catalog.Request.name ∧ run = Catalog.Request.run ∨
        name = Catalog.Raise.name ∧ run = Catalog.Raise.run := by
  simp [catalog_eq]

theorem filterRunner_mem_catalog {name : String} {filter : FilterRunner} :
    .filterRunner name filter ∈ catalog ↔
      name = "upper" ∧ filter = Catalog.LetterCase.onStrings Text.upper ∨
        name = "lower" ∧ filter = Catalog.LetterCase.onStrings Text.lower ∨
        name = Catalog.Required.name ∧ filter = ⟨false, Catalog.Required.transform⟩ := by
  simp [catalog_eq]

/-- What holds of the environments at first, and is kept by each of the extensions, holds of the
environments that have all of them. -/
theorem Registry.loadAll_keeps {extensions : List Extension} {holds : Environments → Prop}
    (keeps : ∀ extension ∈ extensions, ∀ envs, holds envs →
      holds ((envs.add extension).watch extension)) {registry loaded : Registry}
    (loads : registry.loadAll extensions = .ok loaded) (start : holds registry.envs) :
    holds loaded.envs := by
  induction extensions generalizing registry with
  | nil =>
      cases loads
      exact start
  | cons extension rest ih =>
      obtain ⟨first, others⟩ := List.forall_mem_cons.mp keeps
      unfold loadAll at loads
      split at loads
      next => cases loads
      next next step =>
        apply ih others loads
        unfold load at step
        split at step
        next => cases step
        next =>
          split at step
          next => cases step
          next =>
            cases step
            exact first registry.envs start

namespace Environments

@[simp] theorem compileTime_watch (envs : Environments) (extension : Extension) :
    (envs.watch extension).compileTime = envs.compileTime := by
  unfold watch
  split
  · split <;> rfl
  · rfl

@[simp] theorem runtime_watch (envs : Environments) (extension : Extension) :
    (envs.watch extension).runtime = envs.runtime := by
  unfold watch
  split
  · split <;> rfl
  · rfl

@[simp] theorem watchers_add (envs : Environments) (extension : Extension) :
    (envs.add extension).watchers = envs.watchers := by
  cases extension <;> rfl

theorem mem_watchers_watch {envs : Environments} {extension : Extension} {watcher : Watcher} :
    watcher ∈ (envs.watch extension).watchers ↔
      watcher ∈ envs.watchers ∨
        ∃ observer, extension.observer? = some observer ∧ observer.capabilities.any ∧
          watcher = ⟨extension.name, observer⟩ := by
  unfold watch
  split
  next observer observed =>
    split
    next any => simp [observed, any]
    next idle => simp [observed, idle]
  next unobserved => simp [unobserved]

theorem tags_add {envs : Environments} {extension : Extension} {name : String} {run : TagRunner}
    (found : Table.get? (envs.add extension).runtime.tags name = some run) :
    Table.get? envs.runtime.tags name = some run ∨ extension = .tagRunner name run := by
  cases extension with
  | tagRunner other runner =>
      rcases Table.get?_insert_eq_some found with ⟨rfl, rfl⟩ | before
      · exact Or.inr rfl
      · exact Or.inl before
  | _ => exact Or.inl found

theorem filters_add {envs : Environments} {extension : Extension} {name : String}
    {filter : FilterRunner}
    (found : Table.get? (envs.add extension).runtime.filters name = some filter) :
    Table.get? envs.runtime.filters name = some filter ∨ extension = .filterRunner name filter := by
  cases extension with
  | filterRunner other runner =>
      rcases Table.get?_insert_eq_some found with ⟨rfl, rfl⟩ | before
      · exact Or.inr rfl
      · exact Or.inl before
  | _ => exact Or.inl found

theorem grammars_add {envs : Environments} {extension : Extension} {name : String}
    {grammar : TagGrammar}
    (found : Table.get? (envs.add extension).compileTime.tags name = some grammar) :
    Table.get? envs.compileTime.tags name = some grammar ∨
      grammar.name = name ∧
        ∃ announced observer, extension = .tagBuilder announced grammar observer := by
  cases extension with
  | tagBuilder announced own observer =>
      rcases Table.get?_insert_eq_some found with ⟨rfl, rfl⟩ | before
      · exact Or.inr ⟨rfl, announced, observer, rfl⟩
      · exact Or.inl before
  | _ => exact Or.inl found

variable {extensions : List Extension} {envs : Environments}

theorem ofExtensions_keeps (holds : Environments → Prop)
    (keeps : ∀ extension ∈ extensions, ∀ envs, holds envs →
      holds ((envs.add extension).watch extension))
    (loads : ofExtensions extensions = .ok envs) (start : holds {}) : holds envs := by
  unfold ofExtensions at loads
  split at loads
  next => cases loads
  next registry all =>
    cases loads
    exact Registry.loadAll_keeps keeps all start

/-- A tag that was loaded is one of the extensions. -/
theorem tags_ofExtensions (loads : ofExtensions extensions = .ok envs) {name : String}
    {run : TagRunner} (found : Table.get? envs.runtime.tags name = some run) :
    .tagRunner name run ∈ extensions := by
  refine ofExtensions_keeps (fun envs => Table.get? envs.runtime.tags name = some run → _) ?_ loads
    (fun absent => nomatch absent) found
  intro extension listed before loaded found
  rw [runtime_watch] at found
  rcases tags_add found with earlier | rfl
  · exact loaded earlier
  · exact listed

theorem filters_ofExtensions (loads : ofExtensions extensions = .ok envs) {name : String}
    {filter : FilterRunner} (found : Table.get? envs.runtime.filters name = some filter) :
    .filterRunner name filter ∈ extensions := by
  refine ofExtensions_keeps (fun envs => Table.get? envs.runtime.filters name = some filter → _) ?_
    loads (fun absent => nomatch absent) found
  intro extension listed before loaded found
  rw [runtime_watch] at found
  rcases filters_add found with earlier | rfl
  · exact loaded earlier
  · exact listed

/-- All that watches a compilation is the observer of an extension. -/
theorem observers_ofExtensions (loads : ofExtensions extensions = .ok envs) :
    ∀ watcher ∈ envs.watchers, ∃ extension ∈ extensions,
      extension.observer? = some watcher.observer := by
  intro watcher watches
  refine ofExtensions_keeps (fun envs => watcher ∈ envs.watchers → _) ?_ loads
    (fun absent => nomatch absent) watches
  intro extension listed before loaded watches
  rcases mem_watchers_watch.mp watches with earlier | ⟨observer, observed, -, rfl⟩
  · rw [watchers_add] at earlier
    exact loaded earlier
  · exact ⟨extension, listed, observed⟩

/-- A tag that was announced is that of an extension, and the extension's observer, if it asks for
anything, is watching. -/
theorem grammars_ofExtensions (loads : ofExtensions extensions = .ok envs) {name : String}
    {grammar : TagGrammar} (found : Table.get? envs.compileTime.tags name = some grammar) :
    grammar.name = name ∧ ∃ announced observer,
      .tagBuilder announced grammar observer ∈ extensions ∧
        (observer.capabilities.any → ⟨announced, observer⟩ ∈ envs.watchers) := by
  refine ofExtensions_keeps
    (fun envs => Table.get? envs.compileTime.tags name = some grammar →
      grammar.name = name ∧ ∃ announced observer,
        .tagBuilder announced grammar observer ∈ extensions ∧
          (observer.capabilities.any → ⟨announced, observer⟩ ∈ envs.watchers))
    ?_ loads (fun absent => nomatch absent) found
  intro extension listed before loaded found
  rw [compileTime_watch] at found
  rcases grammars_add found with earlier | ⟨named, announced, observer, rfl⟩
  · obtain ⟨named, announced, observer, known, watching⟩ := loaded earlier
    refine ⟨named, announced, observer, known, fun any => mem_watchers_watch.mpr (Or.inl ?_)⟩
    rw [watchers_add]
    exact watching any
  · refine ⟨named, announced, observer, listed, fun any => mem_watchers_watch.mpr (Or.inr ?_)⟩
    exact ⟨observer, rfl, any, rfl⟩

end Environments

end QueryTemplate
