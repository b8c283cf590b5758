import Mathlib.Data.List.Induction
import QueryTemplate.Proofs.Compilation.Extending
import QueryTemplate.Proofs.Compilation.Ordering

set_option autoImplicit false

/- Which extensions are refused, and what the others amount to. An extension is refused for its
name, or for another that was loaded under its key. What has been loaded answers as the extensions
say, and an extension that was refused has left no trace. -/

namespace QueryTemplate

namespace Extension

/-- The name of an extension is an identifier that the language leaves free. -/
structure Allowed (extension : Extension) : Prop where
  identifier : isIdentifier extension.name
  unreserved : extension.name ∉ reservedWords
  apart : extension.kind = .tag → ¬ "end".toList <+: extension.name.toList

/-- What speaks against an extension after others have been loaded. -/
inductive Refused (loaded : List Extension) (extension : Extension) : ConfigError → Prop
  | unnamed (odd : ¬ isIdentifier extension.name) :
    Refused loaded extension (.invalidName extension.name)
  | claimed (identifier : isIdentifier extension.name)
    (taken : extension.name ∈ reservedWords ∨
      extension.kind = .tag ∧ "end".toList <+: extension.name.toList) :
    Refused loaded extension (.reservedName extension.name)
  | again (allowed : extension.Allowed) (known : extension.key ∈ loaded.map key) :
    Refused loaded extension (.duplicate extension.phase extension.kind extension.name)

section Names

variable {loaded : List Extension} {extension : Extension}

theorem reserved_iff : (reservedWords.contains extension.name ||
      (extension.kind == .tag && "end".toList.isPrefixOf extension.name.toList)) = true ↔
    extension.name ∈ reservedWords ∨
      extension.kind = .tag ∧ "end".toList <+: extension.name.toList := by
  rw [Bool.or_eq_true, Bool.and_eq_true, List.contains_iff_mem, beq_iff_eq,
    List.isPrefixOf_iff_prefix]

theorem allowed_or_refused (loaded : List Extension) (extension : Extension) :
    extension.Allowed ∧ extension.key ∉ loaded.map key ∨ ∃ error, extension.Refused loaded error := by
  by_cases identifier : isIdentifier extension.name
  · by_cases taken : extension.name ∈ reservedWords ∨
        extension.kind = .tag ∧ "end".toList <+: extension.name.toList
    · exact Or.inr ⟨_, .claimed identifier taken⟩
    · rw [not_or, not_and] at taken
      have allowed : extension.Allowed := ⟨identifier, taken.1, taken.2⟩
      by_cases known : extension.key ∈ loaded.map key
      · exact Or.inr ⟨_, .again allowed known⟩
      · exact Or.inl ⟨allowed, known⟩
  · exact Or.inr ⟨_, .unnamed identifier⟩

theorem checkName_of_odd (odd : ¬ isIdentifier extension.name) :
    checkName extension.kind extension.name = .error (.invalidName extension.name) := by
  rw [checkName, if_neg odd]

theorem checkName_of_taken (identifier : isIdentifier extension.name)
    (taken : extension.name ∈ reservedWords ∨
      extension.kind = .tag ∧ "end".toList <+: extension.name.toList) :
    checkName extension.kind extension.name = .error (.reservedName extension.name) := by
  rw [checkName, if_pos identifier, if_pos (reserved_iff.mpr taken)]

theorem checkName_eq_ok_iff :
    checkName extension.kind extension.name = .ok () ↔ extension.Allowed := by
  constructor
  · intro passes
    rcases allowed_or_refused [] extension with ⟨allowed, -⟩ | ⟨error, refused⟩
    · exact allowed
    · cases refused with
      | unnamed odd => cases passes.symm.trans (checkName_of_odd odd)
      | claimed identifier taken => cases passes.symm.trans (checkName_of_taken identifier taken)
      | again allowed => exact allowed
  · intro allowed
    have free := mt reserved_iff.mp (not_or.mpr ⟨allowed.unreserved, not_and.mpr allowed.apart⟩)
    rw [checkName, if_pos allowed.identifier, if_neg free]

theorem loadable_iff {extensions : List Extension} : Loadable extensions ↔
    (∀ extension ∈ extensions, extension.Allowed) ∧ (extensions.map key).Nodup := by
  simp only [← checkName_eq_ok_iff]
  exact ⟨fun loadable => ⟨loadable.named, loadable.distinct⟩, fun ⟨named, distinct⟩ =>
    ⟨named, distinct⟩⟩

end Names

end Extension

namespace Registry

open Extension (Loadable)

/-- The registry into which some extensions have been loaded. -/
def holding (extensions : List Extension) : Registry :=
  ⟨.assembled extensions, (extensions.map Extension.key).reverse⟩

variable {loaded : List Extension} {extension : Extension} {error : ConfigError}

theorem load_of_refused (refused : extension.Refused loaded error) :
    (holding loaded).load extension = .error error := by
  unfold load
  cases refused with
  | unnamed odd => rw [Extension.checkName_of_odd odd]
  | claimed identifier taken => rw [Extension.checkName_of_taken identifier taken]
  | again allowed known =>
      have seen : (holding loaded).seen.contains extension.key :=
        List.contains_iff_mem.mpr (List.mem_reverse.mpr known)
      rw [Extension.checkName_eq_ok_iff.mpr allowed]
      exact if_pos seen

theorem load_of_allowed (allowed : extension.Allowed)
    (new : extension.key ∉ loaded.map Extension.key) :
    (holding loaded).load extension = .ok (holding (loaded ++ [extension])) := by
  have unseen : ¬ (holding loaded).seen.contains extension.key := fun seen =>
    new (List.mem_reverse.mp (List.contains_iff_mem.mp seen))
  rw [load, Extension.checkName_eq_ok_iff.mpr allowed]
  dsimp only
  rw [if_neg unseen, holding, holding, Environments.assembled_concat, List.map_append,
    List.reverse_append]
  rfl

theorem load_eq_error :
    (holding loaded).load extension = .error error ↔ extension.Refused loaded error := by
  refine ⟨fun fails => ?_, load_of_refused⟩
  rcases Extension.allowed_or_refused loaded extension with ⟨allowed, new⟩ | ⟨other, refused⟩
  · cases fails.symm.trans (load_of_allowed allowed new)
  · cases fails.symm.trans (load_of_refused refused)
    exact refused

theorem load_eq_ok (before : Loadable loaded) {next : Registry} :
    (holding loaded).load extension = .ok next ↔
      Loadable (loaded ++ [extension]) ∧ next = holding (loaded ++ [extension]) := by
  rw [Extension.loadable_concat, Extension.checkName_eq_ok_iff]
  constructor
  · intro succeeds
    rcases Extension.allowed_or_refused loaded extension with ⟨allowed, new⟩ | ⟨_, refused⟩
    · cases succeeds.symm.trans (load_of_allowed allowed new)
      exact ⟨⟨before, allowed, new⟩, rfl⟩
    · cases succeeds.symm.trans (load_of_refused refused)
  · rintro ⟨⟨-, allowed, new⟩, rfl⟩
    exact load_of_allowed allowed new

/-- What stops the loading of extensions is the first that is refused. -/
theorem loadAll_eq_error {rest : List Extension} (before : Loadable loaded) :
    (holding loaded).loadAll rest = .error error ↔
      ∃ front extension back, rest = front ++ extension :: back ∧ Loadable (loaded ++ front) ∧
        extension.Refused (loaded ++ front) error := by
  induction rest generalizing loaded with
  | nil => simp [loadAll]
  | cons first rest ih =>
      rw [loadAll]
      cases outcome : (holding loaded).load first with
      | error other =>
          have refused := load_eq_error.mp outcome
          constructor
          · intro same
            cases same
            exact ⟨[], first, rest, rfl, by rwa [List.append_nil], by rwa [List.append_nil]⟩
          · rintro ⟨_ | ⟨_, front⟩, extension, back, split, passed, stops⟩
            · cases split
              rw [List.append_nil] at stops
              exact outcome.symm.trans (load_eq_error.mpr stops)
            · cases split
              rw [List.append_cons] at passed
              cases outcome.symm.trans ((load_eq_ok before).mpr ⟨passed.front, rfl⟩)
      | ok next =>
          obtain ⟨loadable, rfl⟩ := (load_eq_ok before).mp outcome
          dsimp only
          rw [ih loadable]
          constructor
          · rintro ⟨front, extension, back, rfl, passed, stops⟩
            refine ⟨first :: front, extension, back, rfl, ?_, ?_⟩
            · rwa [List.append_cons]
            · rwa [List.append_cons]
          · rintro ⟨_ | ⟨_, front⟩, extension, back, split, passed, stops⟩
            · cases split
              rw [List.append_nil] at stops
              cases outcome.symm.trans (load_eq_error.mpr stops)
            · cases split
              rw [List.append_cons] at passed stops
              exact ⟨front, extension, back, rfl, passed, stops⟩

end Registry

namespace Environments

open Extension (Loadable)

variable {extensions : List Extension} {error : ConfigError}

theorem ofExtensions_eq_error : ofExtensions extensions = .error error ↔
    ∃ before extension after, extensions = before ++ extension :: after ∧ Loadable before ∧
      extension.Refused before error := by
  have whole : Registry.loadAll {} extensions = .error error ↔ _ :=
    Registry.loadAll_eq_error Extension.loadable_nil
  simp only [List.nil_append] at whole
  rw [← whole, ofExtensions]
  cases Registry.loadAll {} extensions <;> simp

end Environments

namespace Registry

open Extension (Loadable)

/-- Loads an extension into a registry in place: looks at the name and at the key, and then writes
to one part of the registry after the other. -/
def register (registry : Registry) (extension : Extension) : Registry × Except ConfigError Unit :=
  match checkName extension.kind extension.name with
  | .error error => (registry, .error error)
  | .ok () =>
    if registry.seen.contains extension.key then
      (registry, .error (.duplicate extension.phase extension.kind extension.name))
    else
      let filled := { registry with envs := registry.envs.add extension }
      let watched := { filled with envs := filled.envs.watch extension }
      ({ watched with seen := extension.key :: watched.seen }, .ok ())

/-- In place or not, loading comes to the same, and a registry that refuses an extension is left as
it was. -/
theorem register_eq (registry : Registry) (extension : Extension) :
    registry.register extension =
      match registry.load extension with
      | .error error => (registry, .error error)
      | .ok next => (next, .ok ()) := by
  unfold register load
  cases checkName extension.kind extension.name with
  | error error => rfl
  | ok =>
      dsimp only
      split <;> rfl

/-- An extension, and how its loading went. -/
abbrev Attempt := Extension × Except ConfigError Unit

/-- Loads extensions one after the other, whether or not the others could be loaded. -/
def registerEach (registry : Registry) : List Extension → Registry × List Attempt
  | [] => (registry, [])
  | extension :: rest =>
    let (next, outcome) := registry.register extension
    let (last, attempts) := next.registerEach rest
    (last, (extension, outcome) :: attempts)

/-- The extensions that could be loaded. -/
def accepted (attempts : List Attempt) : List Extension :=
  (attempts.filter (·.2.isOk)).map (·.1)

theorem accepted_nil : accepted [] = [] := rfl

theorem accepted_cons (first : Attempt) (rest : List Attempt) :
    accepted (first :: rest) = accepted [first] ++ accepted rest := by
  rw [← List.singleton_append, accepted, List.filter_append, List.map_append]
  rfl

/-- Attempts after some extensions have been loaded. Those that could be loaded can be loaded
together, and each of the others is refused after those before it. -/
structure Judged (loaded : List Extension) (attempts : List Attempt) : Prop where
  loadable : Loadable (loaded ++ accepted attempts)
  refused : ∀ front extension outcome back, attempts = front ++ (extension, outcome) :: back →
    ∀ error, outcome = .error error ↔ extension.Refused (loaded ++ accepted front) error

variable {loaded : List Extension}

theorem Judged.nil (before : Loadable loaded) : Judged loaded [] where
  loadable := by rwa [accepted_nil, List.append_nil]
  refused := by
    intro front extension outcome back split
    cases List.append_ne_nil_of_right_ne_nil front (List.cons_ne_nil _ back) split.symm

theorem Judged.cons {extension : Extension} {outcome : Except ConfigError Unit}
    {attempts : List Attempt}
    (first : ∀ error, outcome = .error error ↔ extension.Refused loaded error)
    (rest : Judged (loaded ++ accepted [(extension, outcome)]) attempts) :
    Judged loaded ((extension, outcome) :: attempts) where
  loadable := by
    rw [accepted_cons, ← List.append_assoc]
    exact rest.loadable
  refused := by
    rintro (_ | ⟨_, front⟩) other result back split
    · cases split
      rwa [accepted_nil, List.append_nil]
    · cases split
      rw [accepted_cons, ← List.append_assoc]
      exact rest.refused front other result back rfl

theorem register_holding (before : Loadable loaded) (extension : Extension) :
    ∃ outcome, (holding loaded).register extension =
        (holding (loaded ++ accepted [(extension, outcome)]), outcome) ∧
      Loadable (loaded ++ accepted [(extension, outcome)]) ∧
      ∀ error, outcome = .error error ↔ extension.Refused loaded error := by
  have judges (error : ConfigError) :
      (holding loaded).load extension = .error error ↔ extension.Refused loaded error :=
    load_eq_error
  rw [register_eq]
  cases loads : (holding loaded).load extension with
  | error error =>
      have kept : accepted [(extension, .error error)] = [] := rfl
      refine ⟨.error error, ?_, ?_, fun other => ?_⟩
      · rw [kept, List.append_nil]
      · rwa [kept, List.append_nil]
      · rw [← judges, loads, Except.error.injEq, Except.error.injEq]
  | ok next =>
      obtain ⟨loadable, rfl⟩ := (load_eq_ok before).mp loads
      refine ⟨.ok (), rfl, loadable, fun other => ?_⟩
      rw [← judges, loads]
      exact iff_of_false nofun nofun

/-- Loading on after refusals loads the extensions that are not refused. -/
theorem registerEach_holding (before : Loadable loaded) (rest : List Extension) :
    ∃ attempts,
      (holding loaded).registerEach rest = (holding (loaded ++ accepted attempts), attempts) ∧
      attempts.map (·.1) = rest ∧ Judged loaded attempts := by
  induction rest generalizing loaded with
  | nil =>
      refine ⟨[], ?_, rfl, .nil before⟩
      rw [accepted_nil, List.append_nil]
      rfl
  | cons first rest ih =>
      obtain ⟨outcome, registers, loadable, refused⟩ := register_holding before first
      obtain ⟨attempts, goesOn, listed, judged⟩ := ih loadable
      refine ⟨(first, outcome) :: attempts, ?_, congrArg (first :: ·) listed, .cons refused judged⟩
      rw [registerEach, registers]
      dsimp only
      rw [goesOn, accepted_cons (first, outcome) attempts, List.append_assoc]

end Registry

namespace Extension

/-- An extension as one that watches compilations. -/
def watching? (extension : Extension) : Option Watcher :=
  extension.observer?.map fun observer => ⟨extension.name, observer⟩

/-- The watchers with a capability are the extensions with that capability. -/
theorem filter_watchers (extensions : List Extension) {able : Capabilities → Bool}
    (some_able : ∀ capabilities, able capabilities → capabilities.any) (idle : able .none = false) :
    (extensions.filterMap watcher?).filter (able ·.observer.capabilities) =
      (extensions.filter (able ·.capabilities)).filterMap watching? := by
  rw [List.filter_filterMap, List.filterMap_filter]
  refine List.filterMap_congr fun extension _ => ?_
  unfold watcher? watching? capabilities
  cases extension.observer? with
  | none => simp [idle]
  | some observer =>
      by_cases can : able observer.capabilities
      · simp [can, some_able _ can]
      · by_cases watches : observer.capabilities.any <;> simp [can, watches]

theorem mem_grammars {extensions : List Extension}
    (own : ∀ extension ∈ extensions, extension.OwnName) {name : String} {grammar : TagGrammar} :
    (name, grammar) ∈ extensions.filterMap grammar? ↔
      ∃ observer, .tagBuilder name grammar observer ∈ extensions := by
  rw [List.mem_filterMap]
  constructor
  · rintro ⟨extension, within, has⟩
    cases extension with
    | tagBuilder announced other observer =>
        have named := own _ within
        cases has
        cases named
        exact ⟨observer, within⟩
    | _ => cases has
  · rintro ⟨observer, within⟩
    refine ⟨_, within, ?_⟩
    have named : grammar.name = name := own _ within
    rw [grammar?, named]

theorem mem_announced {extensions : List Extension} {name : String} {isAsync : Bool} :
    (name, isAsync) ∈ extensions.filterMap announced? ↔
      ∃ observer, .filterBuilder name isAsync observer ∈ extensions := by
  rw [List.mem_filterMap]
  constructor
  · rintro ⟨extension, within, has⟩
    cases extension <;> cases has
    exact ⟨_, within⟩
  · rintro ⟨observer, within⟩
    exact ⟨_, within, rfl⟩

theorem mem_tagRunners {extensions : List Extension} {name : String} {runner : TagRunner} :
    (name, runner) ∈ extensions.filterMap tagRunner? ↔ .tagRunner name runner ∈ extensions := by
  rw [List.mem_filterMap]
  constructor
  · rintro ⟨extension, within, has⟩
    cases extension <;> cases has
    exact within
  · exact fun within => ⟨_, within, rfl⟩

theorem mem_filterRunners {extensions : List Extension} {name : String} {runner : FilterRunner} :
    (name, runner) ∈ extensions.filterMap filterRunner? ↔
      .filterRunner name runner ∈ extensions := by
  rw [List.mem_filterMap]
  constructor
  · rintro ⟨extension, within, has⟩
    cases extension <;> cases has
    exact within
  · exact fun within => ⟨_, within, rfl⟩

end Extension

namespace Environments

open Extension (Loadable)

/-- The environments answer as the extensions say. -/
structure Answers (envs : Environments) (extensions : List Extension) : Prop where
  grammar : ∀ name grammar, Table.get? envs.compileTime.tags name = some grammar ↔
    ∃ observer, .tagBuilder name grammar observer ∈ extensions
  announced : ∀ name isAsync, Table.get? envs.compileTime.filters name = some isAsync ↔
    ∃ observer, .filterBuilder name isAsync observer ∈ extensions
  tagRunner : ∀ name runner, Table.get? envs.runtime.tags name = some runner ↔
    .tagRunner name runner ∈ extensions
  filterRunner : ∀ name runner, Table.get? envs.runtime.filters name = some runner ↔
    .filterRunner name runner ∈ extensions
  announcedAsync : ∀ name, name ∈ envs.compileTime.asyncFilters ↔
    ∃ observer, .filterBuilder name true observer ∈ extensions
  runtimeAsync : ∀ name, name ∈ envs.runtime.asyncFilters ↔
    ∃ runner, runner.isAsync ∧ .filterRunner name runner ∈ extensions
  visitors : envs.visitors =
    (extensions.filter (·.capabilities.astVisit)).filterMap Extension.watching?
  providers : envs.providers =
    (extensions.filter (·.capabilities.provideMetadata)).filterMap Extension.watching?

theorem answers_assembled {extensions : List Extension} (loadable : Loadable extensions)
    (own : ∀ extension ∈ extensions, extension.OwnName) :
    (assembled extensions).Answers extensions := by
  have tags := loadable.nodup_part
    fun extension within _ => Extension.key_of_grammar? (own extension within)
  have filters := loadable.nodup_part fun _ _ _ => Extension.key_of_announced?
  have tagRunners := loadable.nodup_part fun _ _ _ => Extension.key_of_tagRunner?
  have filterRunners := loadable.nodup_part fun _ _ _ => Extension.key_of_filterRunner?
  constructor
  case grammar => exact fun _ _ => (Table.get?_ofList tags).trans (Extension.mem_grammars own)
  case announced => exact fun _ _ => (Table.get?_ofList filters).trans Extension.mem_announced
  case tagRunner => exact fun _ _ => (Table.get?_ofList tagRunners).trans Extension.mem_tagRunners
  case filterRunner =>
    exact fun _ _ => (Table.get?_ofList filterRunners).trans Extension.mem_filterRunners
  case announcedAsync =>
    intro name
    rw [CompileEnvironment.mem_asyncFilters_iff]
    exact (Table.mem_ofList filters).trans Extension.mem_announced
  case runtimeAsync =>
    intro name
    rw [RuntimeEnvironment.mem_asyncFilters_iff]
    refine exists_congr fun runner => ?_
    rw [and_comm]
    exact and_congr_right fun _ =>
      (Table.mem_ofList filterRunners).trans Extension.mem_filterRunners
  case visitors =>
    exact Extension.filter_watchers extensions (fun _ can => by simp [Capabilities.any, can]) rfl
  case providers =>
    exact Extension.filter_watchers extensions (fun _ can => by simp [Capabilities.any, can]) rfl

/-- Extensions are loaded together, or not at all: they are if their names are allowed and their
keys differ, and if not the error is that of the first that is refused. What is loaded answers as
the extensions say. A registry that refuses an extension is left as it was, so that to go on loading
is to load the extensions that are not refused. -/
theorem loading_exact {extensions : List Extension}
    (own : ∀ extension ∈ extensions, extension.OwnName) :
    ((∃ envs, ofExtensions extensions = .ok envs) ↔
      (∀ extension ∈ extensions, extension.Allowed) ∧ (extensions.map Extension.key).Nodup) ∧
    (∀ error, ofExtensions extensions = .error error ↔
      ∃ before extension after, extensions = before ++ extension :: after ∧
        (∃ envs, ofExtensions before = .ok envs) ∧ extension.Refused before error) ∧
    (∀ envs, ofExtensions extensions = .ok envs → envs.Answers extensions) ∧
    (∀ (registry : Registry) (extension : Extension), registry.register extension =
      match registry.load extension with
      | .error error => (registry, .error error)
      | .ok next => (next, .ok ())) ∧
    ∃ attempts last, Registry.registerEach {} extensions = (last, attempts) ∧
      attempts.map (·.1) = extensions ∧
      ofExtensions (Registry.accepted attempts) = .ok last.envs ∧
      ∀ front extension outcome back, attempts = front ++ (extension, outcome) :: back →
        ∀ error, outcome = .error error ↔ extension.Refused (Registry.accepted front) error := by
  have loads (extensions : List Extension) :
      (∃ envs, ofExtensions extensions = .ok envs) ↔ Loadable extensions := by
    simp only [ofExtensions_eq_ok]
    exact ⟨fun ⟨_, loadable, _⟩ => loadable, fun loadable => ⟨_, loadable, rfl⟩⟩
  refine ⟨(loads extensions).trans Extension.loadable_iff, fun error => ?_, fun envs loaded => ?_,
    Registry.register_eq, ?_⟩
  · simp only [loads]
    exact ofExtensions_eq_error
  · obtain ⟨loadable, rfl⟩ := ofExtensions_eq_ok.mp loaded
    exact answers_assembled loadable own
  · obtain ⟨attempts, goesOn, listed, judged⟩ :=
      Registry.registerEach_holding Extension.loadable_nil extensions
    refine ⟨attempts, _, goesOn, listed, ?_, judged.refused⟩
    exact ofExtensions_eq_ok.mpr ⟨judged.loadable, rfl⟩

/-- A tag that looks like a closer stops the loading. To go on is to load all but that tag, the
second filter of one name, and the filter whose name is no identifier. -/
theorem loading_exact_refusals :
    let extensions : List Extension := [.tagBuilder "note" ⟨"note", false⟩ .idle,
      .filterBuilder "note" true .idle, .tagBuilder "endpoint" ⟨"endpoint", true⟩ .idle,
      .filterBuilder "note" false .idle, .filterBuilder "up-per" false .idle]
    ofExtensions extensions = .error (.reservedName "endpoint") ∧
      ∃ attempts last, Registry.registerEach {} extensions = (last, attempts) ∧
        (Registry.accepted attempts).map Extension.key =
          [(.compileTime, .tag, "note"), (.compileTime, .filter, "note")] ∧
        ofExtensions (Registry.accepted attempts) = .ok last.envs ∧
        last.envs.compileTime.asyncFilters = ["note"] := by
  intro extensions
  have own : ∀ extension ∈ extensions, extension.OwnName := by simp [extensions, Extension.OwnName]
  obtain ⟨-, stops, -, -, attempts, last, goesOn, -, loads, -⟩ := loading_exact own
  have done : ((Registry.accepted (Registry.registerEach {} extensions).2).map Extension.key =
        [(.compileTime, .tag, "note"), (.compileTime, .filter, "note")] ∧
      (Registry.registerEach {} extensions).1.envs.compileTime.asyncFilters = ["note"]) ∧
      (ofExtensions (extensions.take 2)).toOption.isSome := by decide +kernel
  obtain ⟨done, before⟩ := done
  rw [goesOn] at done
  obtain ⟨envs, before⟩ := Option.isSome_iff_exists.mp before
  refine ⟨(stops _).mpr ⟨_, _, _, rfl, ⟨envs, eq_ok_iff_toOption.mpr before⟩, ?_⟩,
    attempts, last, goesOn, done.1, loads, done.2⟩
  exact .claimed (by decide) (Or.inr ⟨rfl, by decide⟩)

end Environments

end QueryTemplate
