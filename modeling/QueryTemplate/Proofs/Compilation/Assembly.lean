import Mathlib.Data.List.Nodup
import QueryTemplate.Proofs.Compilation.Loading
import QueryTemplate.Proofs.Compilation.Metadata
import QueryTemplate.Proofs.Tables

set_option autoImplicit false

/- What loading a list of extensions comes to. The list can be loaded if the names are allowed and
no two extensions share a key, and then each table has the entries of the extensions that have one
for it, and the metadata of a template has the entries that the extensions give for it. -/

namespace QueryTemplate

/-- Aggregation makes a table of what the sessions contribute. -/
theorem Session.aggregate_eq (sessions : List Session) :
    aggregate sessions = Table.ofList (sessions.filterMap contribution?) := by
  unfold aggregate Table.ofList
  rw [List.foldl_filterMap]
  congr
  funext metadata session
  unfold contribute
  cases session.contribution? <;> rfl

namespace Extension

def grammar? : Extension → Option (String × TagGrammar)
  | tagBuilder _ grammar _ => some (grammar.name, grammar)
  | _ => none

/-- A filter that is announced, and whether its results may come later. -/
def announced? : Extension → Option (String × Bool)
  | filterBuilder name isAsync _ => some (name, isAsync)
  | _ => none

def tagRunner? : Extension → Option (String × TagRunner)
  | tagRunner name runner => some (name, runner)
  | _ => none

def filterRunner? : Extension → Option (String × FilterRunner)
  | filterRunner name runner => some (name, runner)
  | _ => none

def watcher? (extension : Extension) : Option Watcher :=
  extension.observer?.bind fun observer =>
    if observer.capabilities.any then some ⟨extension.name, observer⟩ else none

/-- The entry of metadata that an extension gives for the elements of a template. -/
def entry? (elements : List Element) (extension : Extension) : Option (String × Json) :=
  extension.observer?.bind fun observer => observer.entry? elements

/-- The entries of all extensions that give one, in their order. -/
def entries (elements : List Element) (extensions : List Extension) : List (String × Json) :=
  extensions.filterMap fun extension => extension.entry? elements

/-- An extension without capabilities gives nothing. -/
theorem entry?_eq_watcher? (elements : List Element) (extension : Extension) :
    extension.entry? elements =
      extension.watcher?.bind fun watcher => watcher.observer.entry? elements := by
  unfold entry? watcher?
  cases extension.observer? with
  | none => rfl
  | some observer =>
      rw [Option.bind_some, Option.bind_some]
      split
      next => rfl
      next idle =>
        have provides : observer.capabilities.provideMetadata = false := by
          simp only [Capabilities.any, Bool.or_eq_true, not_or, Bool.not_eq_true] at idle
          exact idle.2
        unfold Observer.entry?
        rw [provides]
        rfl

/-- The grammar of a tag carries the name of the extension that announces it. -/
def OwnName : Extension → Prop
  | tagBuilder name grammar _ => grammar.name = name
  | _ => True

/-- Extensions that can be loaded together. -/
structure Loadable (extensions : List Extension) : Prop where
  named : ∀ extension ∈ extensions, checkName extension.kind extension.name = .ok ()
  distinct : (extensions.map key).Nodup

theorem loadable_nil : Loadable [] where
  named := fun _ within => nomatch within
  distinct := List.nodup_nil

theorem loadable_concat {extensions : List Extension} {extension : Extension} :
    Loadable (extensions ++ [extension]) ↔
      Loadable extensions ∧ checkName extension.kind extension.name = .ok () ∧
        extension.key ∉ extensions.map key := by
  constructor
  · rintro ⟨named, distinct⟩
    rw [List.map_append, List.nodup_append] at distinct
    obtain ⟨before, -, apart⟩ := distinct
    obtain ⟨allowed, last⟩ := List.forall_mem_append.mp named
    refine ⟨⟨allowed, before⟩, last extension List.mem_cons_self, fun within => ?_⟩
    exact apart _ within _ List.mem_cons_self rfl
  · rintro ⟨⟨named, distinct⟩, allowed, new⟩
    refine ⟨List.forall_mem_append.mpr ⟨named, List.forall_mem_singleton.mpr allowed⟩, ?_⟩
    rw [List.map_append, List.nodup_append]
    refine ⟨distinct, List.nodup_singleton _, ?_⟩
    rintro _ within _ last rfl
    exact new (List.mem_singleton.mp last ▸ within)

theorem Loadable.front {front back : List Extension} (loadable : Loadable (front ++ back)) :
    Loadable front where
  named := (List.forall_mem_append.mp loadable.named).1
  distinct := by
    have distinct := loadable.distinct
    rw [List.map_append] at distinct
    exact distinct.of_append_left

end Extension

open Extension (Loadable)

namespace Environments

/-- The environments that hold what some extensions have for them. -/
def assembled (extensions : List Extension) : Environments where
  compileTime :=
    { tags := Table.ofList (extensions.filterMap Extension.grammar?)
      filters := Table.ofList (extensions.filterMap Extension.announced?) }
  runtime :=
    { tags := Table.ofList (extensions.filterMap Extension.tagRunner?)
      filters := Table.ofList (extensions.filterMap Extension.filterRunner?) }
  watchers := extensions.filterMap Extension.watcher?

theorem watch_eq (envs : Environments) (extension : Extension) :
    envs.watch extension =
      { envs with watchers := envs.watchers ++ extension.watcher?.toList } := by
  unfold watch Extension.watcher?
  cases extension.observer? with
  | none => simp
  | some observer =>
      rw [Option.bind_some]
      dsimp only
      split <;> simp

theorem assembled_concat (extensions : List Extension) (extension : Extension) :
    assembled (extensions ++ [extension]) =
      ((assembled extensions).add extension).watch extension := by
  have watching : (extensions ++ [extension]).filterMap Extension.watcher? =
      extensions.filterMap Extension.watcher? ++ extension.watcher?.toList := by
    rw [List.filterMap_append, List.filterMap_cons, List.filterMap_nil]
    cases extension.watcher? <;> rfl
  rw [watch_eq, watchers_add, assembled, watching]
  cases extension <;>
    simp [assembled, add, List.filterMap_append, List.filterMap_cons, Extension.grammar?,
      Extension.announced?, Extension.tagRunner?, Extension.filterRunner?, Table.ofList_concat]

/-- Loading goes on from the environments of the extensions that have been loaded. -/
theorem loadAll_assembled {done rest : List Extension} {envs : Environments}
    (before : Loadable done) :
    (∃ seen, Registry.loadAll ⟨assembled done, (done.map Extension.key).reverse⟩ rest =
        .ok ⟨envs, seen⟩) ↔
      Loadable (done ++ rest) ∧ envs = assembled (done ++ rest) := by
  induction rest generalizing done with
  | nil =>
      rw [List.append_nil]
      constructor
      · rintro ⟨seen, loads⟩
        cases loads
        exact ⟨before, rfl⟩
      · rintro ⟨-, rfl⟩
        exact ⟨_, rfl⟩
  | cons extension rest ih =>
      rw [List.append_cons]
      by_cases next : Loadable (done ++ [extension])
      · obtain ⟨-, allowed, new⟩ := Extension.loadable_concat.mp next
        rw [← ih next, Registry.loadAll, Registry.load, allowed]
        simp [new, assembled_concat]
      · constructor
        · rintro ⟨seen, loads⟩
          refine absurd (Extension.loadable_concat.mpr ⟨before, ?_⟩) next
          unfold Registry.loadAll Registry.load at loads
          cases allowed : checkName extension.kind extension.name with
          | error error => simp [allowed] at loads
          | ok =>
              refine ⟨rfl, fun present => ?_⟩
              simp [allowed, present] at loads
        · rintro ⟨loadable, -⟩
          exact absurd loadable.front next

/-- What loading does: all or nothing. -/
theorem ofExtensions_eq_ok {extensions : List Extension} {envs : Environments} :
    ofExtensions extensions = .ok envs ↔ Loadable extensions ∧ envs = assembled extensions := by
  have whole : (∃ seen, Registry.loadAll {} extensions = .ok ⟨envs, seen⟩) ↔
      Loadable extensions ∧ envs = assembled extensions :=
    loadAll_assembled Extension.loadable_nil
  rw [← whole, ofExtensions]
  cases Registry.loadAll {} extensions with
  | error error => simp
  | ok registry =>
      obtain ⟨loaded, seen⟩ := registry
      simp

section Metadata

variable (extensions : List Extension) (template : Template)

theorem metadata_assembled :
    (assembled extensions).metadata template =
      Table.ofList (Extension.entries (Template.elements template) extensions) := by
  have given : Extension.entries (Template.elements template) extensions =
      (assembled extensions).watchers.filterMap fun watcher =>
        watcher.observer.entry? (Template.elements template) := by
    rw [assembled, List.filterMap_filterMap]
    exact List.filterMap_congr fun extension _ => Extension.entry?_eq_watcher? _ extension
  rw [metadata, Session.aggregate_eq, sessions, Session.walk_eq_map, List.map_map,
    List.filterMap_map, given]
  exact congrArg Table.ofList
    (List.filterMap_congr fun watcher _ => Session.contribution?_foldl_visit _ watcher)

/-- One more extension changes no key but the one that it gives. -/
theorem get?_metadata_concat {extension : Extension} {key : String}
    (silent : ∀ value, extension.entry? (Template.elements template) ≠ some (key, value)) :
    Table.get? ((assembled (extensions ++ [extension])).metadata template) key =
      Table.get? ((assembled extensions).metadata template) key := by
  rw [metadata_assembled, metadata_assembled, Extension.entries, List.filterMap_append,
    List.filterMap_cons, List.filterMap_nil]
  split
  next =>
    rw [List.append_nil]
    rfl
  next given gives =>
    obtain ⟨other, value⟩ := given
    rw [Table.ofList_concat]
    apply Table.get?_insert_of_ne
    rintro rfl
    exact silent value gives

end Metadata

end Environments

end QueryTemplate
