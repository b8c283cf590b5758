import Mathlib.Data.List.Perm.Basic
import QueryTemplate.Proofs.Compilation.Assembly
import QueryTemplate.Proofs.Compilation.Safety

set_option autoImplicit false

/- The order in which extensions are loaded. It shows in no table, since no two entries of a table
have one key, and so in no code; it decides which of the extensions that give a key of metadata has
the last word. -/

namespace QueryTemplate

universe u

namespace Extension

variable {α : Type u} {first second extensions : List Extension}

theorem Loadable.of_perm (loadable : Loadable first) (reordered : first.Perm second) :
    Loadable second where
  named extension within := loadable.named extension (reordered.mem_iff.mpr within)
  distinct := (reordered.map key).nodup_iff.mp loadable.distinct

/-- Extensions that have an entry for the same table differ in the names of their entries. -/
theorem Loadable.nodup_part (loadable : Loadable extensions) {part : Extension → Option (String × α)}
    {phase : Phase} {kind : ExtensionKind}
    (named : ∀ extension ∈ extensions, ∀ entry, part extension = some entry →
      extension.key = (phase, kind, entry.1)) :
    (Table.keys (extensions.filterMap part)).Nodup := by
  have distinct := loadable.distinct
  unfold Table.keys
  rw [List.Nodup, List.pairwise_map] at distinct ⊢
  rw [List.pairwise_filterMap]
  refine distinct.imp_of_mem ?_
  intro extension other within within' apart entry gives entry' gives' same
  apply apart
  rw [named extension within entry gives, named other within' entry' gives', same]

theorem Loadable.ofList_part (loadable : Loadable first) (reordered : first.Perm second)
    {part : Extension → Option (String × α)} {phase : Phase} {kind : ExtensionKind}
    (named : ∀ extension ∈ first, ∀ entry, part extension = some entry →
      extension.key = (phase, kind, entry.1)) :
    Table.ofList (first.filterMap part) = Table.ofList (second.filterMap part) :=
  Table.ofList_of_perm (reordered.filterMap part) (loadable.nodup_part named)

theorem key_of_grammar? {extension : Extension} (own : extension.OwnName)
    {entry : String × TagGrammar} (has : extension.grammar? = some entry) :
    extension.key = (.compileTime, .tag, entry.1) := by
  cases extension <;> cases has
  rw [own]
  rfl

theorem key_of_announced? {extension : Extension} {entry : String × Bool}
    (has : extension.announced? = some entry) :
    extension.key = (.compileTime, .filter, entry.1) := by
  cases extension <;> cases has
  rfl

theorem key_of_tagRunner? {extension : Extension} {entry : String × TagRunner}
    (has : extension.tagRunner? = some entry) : extension.key = (.runtime, .tag, entry.1) := by
  cases extension <;> cases has
  rfl

theorem key_of_filterRunner? {extension : Extension} {entry : String × FilterRunner}
    (has : extension.filterRunner? = some entry) :
    extension.key = (.runtime, .filter, entry.1) := by
  cases extension <;> cases has
  rfl

/-- The value of a key is the one that the last extension to give the key gives it. -/
def Decides (elements : List Element) (extensions : List Extension) (key : String)
    (value : Json) : Prop :=
  ∃ before extension after, extensions = before ++ extension :: after ∧
    extension.entry? elements = some (key, value) ∧
    ∀ later ∈ after, ∀ other, later.entry? elements ≠ some (key, other)

end Extension

namespace Environments

open Extension (Loadable OwnName Decides)

variable {first second extensions : List Extension}

/-- In another order the extensions make the same tables. -/
theorem assembled_of_perm (loadable : Loadable first) (own : ∀ extension ∈ first, extension.OwnName)
    (reordered : first.Perm second) :
    (assembled first).compileTime = (assembled second).compileTime ∧
      (assembled first).runtime = (assembled second).runtime := by
  have tags := loadable.ofList_part reordered
    fun extension within _ => Extension.key_of_grammar? (own extension within)
  have filters := loadable.ofList_part reordered fun _ _ _ => Extension.key_of_announced?
  have tagRunners := loadable.ofList_part reordered fun _ _ _ => Extension.key_of_tagRunner?
  have filterRunners := loadable.ofList_part reordered fun _ _ _ => Extension.key_of_filterRunner?
  simp only [assembled, tags, filters, tagRunners, filterRunners, and_self]

/-- What watches a compilation changes nothing of it but the metadata. -/
theorem compile_of_tables {envs others : Environments}
    (compileTime : envs.compileTime = others.compileTime) (runtime : envs.runtime = others.runtime)
    (source : String) :
    (envs.compile source).map (·.code) = (others.compile source).map (·.code) := by
  have filters : envs.asyncFilters = others.asyncFilters := by
    unfold asyncFilters
    rw [compileTime, runtime]
  unfold compile analyze
  rw [compileTime, runtime, filters]
  cases Template.parse others.compileTime.tags source with
  | error error => rfl
  | ok template =>
      dsimp only
      cases generate (Template.awaiting others.asyncFilters template) others.runtime <;> rfl

/-- The value that an extension gives for a key. -/
theorem value?_watcher? {elements : List Element} {extension : Extension} {key : String}
    {value : Json} :
    (extension.watcher?.bind fun watcher =>
        (elements.foldl Session.visit (Session.start watcher)).value? key) = some value ↔
      extension.entry? elements = some (key, value) := by
  rw [Extension.entry?_eq_watcher?]
  cases extension.watcher? with
  | none => simp
  | some watcher =>
      rw [Option.bind_some, Option.bind_some, Session.value?_eq_some,
        Session.contribution?_foldl_visit]

/-- Each key of the metadata has the value that the last extension to give it gives. -/
theorem get?_metadata_assembled {template : Template} {key : String} {value : Json} :
    Table.get? ((assembled extensions).metadata template) key = some value ↔
      Decides (Template.elements template) extensions key value := by
  rw [get?_metadata, assembled, ← List.filterMap_reverse, ← List.head?_filterMap,
    List.filterMap_filterMap, List.head?_filterMap, List.findSome?_eq_some_iff]
  constructor
  · rintro ⟨after, extension, before, listed, gives, silent⟩
    refine ⟨before.reverse, extension, after.reverse, ?_, value?_watcher?.mp gives, ?_⟩
    · rw [← List.reverse_reverse extensions, listed]
      simp
    · intro later within other given
      have none := silent later (List.mem_reverse.mp within)
      rw [value?_watcher?.mpr given] at none
      cases none
  · rintro ⟨before, extension, after, rfl, gives, silent⟩
    refine ⟨after.reverse, extension, before.reverse, by simp, value?_watcher?.mpr gives, ?_⟩
    intro later within
    rw [Option.eq_none_iff_forall_ne_some]
    intro other given
    exact silent later (List.mem_reverse.mp within) other (value?_watcher?.mp given)

/-- Of the order in which extensions are loaded nothing shows in the code of a source, or in the
error, and nothing in the metadata but which of the values given for one key is kept: the last. -/
theorem compile_of_perm (own : ∀ extension ∈ first, extension.OwnName)
    (reordered : first.Perm second) :
    ((∃ envs, ofExtensions first = .ok envs) ↔ ∃ others, ofExtensions second = .ok others) ∧
      ∀ envs others, ofExtensions first = .ok envs → ofExtensions second = .ok others →
        ∀ source,
          (envs.compile source).map (·.code) = (others.compile source).map (·.code) ∧
          Template.parse envs.compileTime.tags source =
            Template.parse others.compileTime.tags source ∧
          ∀ template compiled other, Template.parse envs.compileTime.tags source = .ok template →
            envs.compile source = .ok compiled → others.compile source = .ok other →
            ((Table.keys (Extension.entries (Template.elements template) first)).Nodup →
              compiled.metadata = other.metadata) ∧
            ∀ key value,
              (Table.get? compiled.metadata key = some value ↔
                Decides (Template.elements template) first key value) ∧
              (Table.get? other.metadata key = some value ↔
                Decides (Template.elements template) second key value) := by
  simp only [ofExtensions_eq_ok]
  constructor
  · constructor
    · rintro ⟨_, loadable, -⟩
      exact ⟨_, loadable.of_perm reordered, rfl⟩
    · rintro ⟨_, loadable, -⟩
      exact ⟨_, loadable.of_perm reordered.symm, rfl⟩
  · rintro envs others ⟨loadable, rfl⟩ ⟨-, rfl⟩ source
    obtain ⟨compileTime, runtime⟩ := assembled_of_perm loadable own reordered
    refine ⟨compile_of_tables compileTime runtime source, by rw [compileTime], ?_⟩
    intro template compiled other parsed compiles compiles'
    have parsed' := parsed
    rw [compileTime] at parsed'
    rw [metadata_compile parsed compiles, metadata_compile parsed' compiles']
    refine ⟨fun distinct => ?_, fun key value =>
      ⟨get?_metadata_assembled, get?_metadata_assembled⟩⟩
    rw [metadata_assembled, metadata_assembled]
    exact Table.ofList_of_perm (reordered.filterMap _) distinct

/-- Two filters give the same key. The code is the same in either order, and the metadata says what
the filter says that is loaded last. -/
theorem compile_of_perm_overriding :
    let owned (name : String) : Extension := .filterBuilder name false
      ⟨.all, { Hooks.idle with contribution := fun _ => some ("owner", .string name) }⟩
    let source := "\x7b\x7b 'x' | upper \x7d\x7d"
    let runner : Extension := .filterRunner "upper" (Catalog.LetterCase.onStrings Text.upper)
    ∃ envs others compiled other,
      ofExtensions [owned "upper", runner, owned "lower"] = .ok envs ∧
      ofExtensions [owned "lower", owned "upper", runner] = .ok others ∧
      envs.compile source = .ok compiled ∧ others.compile source = .ok other ∧
      compiled.code = other.code ∧
      Table.get? compiled.metadata "owner" = some (.string "lower") ∧
      Table.get? other.metadata "owner" = some (.string "upper") := by
  intro owned source runner
  have runs : (ofExtensions [owned "upper", runner, owned "lower"]).toOption.any (fun envs =>
      (envs.compile source).toOption.isSome) = true := by decide +kernel
  obtain ⟨envs, loads, succeeds⟩ := (Option.any_eq_true ..).mp runs
  have loads := eq_ok_iff_toOption.mpr loads
  obtain ⟨compiled, compiles⟩ := Option.isSome_iff_exists.mp succeeds
  have compiles := eq_ok_iff_toOption.mpr compiles
  obtain ⟨template, parsed, -⟩ := decode_compile (by decide) compiles
  have own : ∀ extension ∈ [owned "upper", runner, owned "lower"], extension.OwnName := by
    simp [owned, runner, OwnName]
  obtain ⟨loadable, alike⟩ := compile_of_perm own
    (List.perm_append_comm : List.Perm ([owned "upper", runner] ++ [owned "lower"])
      [owned "lower", owned "upper", runner])
  obtain ⟨others, loads'⟩ := loadable.mp ⟨envs, loads⟩
  obtain ⟨same, -, metadata⟩ := alike envs others loads loads' source
  rw [compiles] at same
  cases compiles' : others.compile source with
  | error error =>
      rw [compiles'] at same
      cases same
  | ok other =>
      rw [compiles'] at same
      obtain ⟨-, decided⟩ := metadata template compiled other parsed compiles compiles'
      refine ⟨envs, others, compiled, other, loads, loads', compiles, compiles',
        Except.ok.inj same, ?_, ?_⟩
      · refine (decided _ _).1.mpr ⟨[owned "upper", runner], owned "lower", [], rfl, rfl, ?_⟩
        exact fun _ within => nomatch within
      · refine (decided _ _).2.mpr ⟨[owned "lower"], owned "upper", [runner], rfl, rfl, ?_⟩
        intro later within
        rw [List.mem_singleton.mp within]
        exact fun _ given => nomatch given

end Environments

end QueryTemplate
