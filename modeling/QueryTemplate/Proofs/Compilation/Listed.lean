import QueryTemplate.Proofs.Compilation.Loading
import QueryTemplate.Proofs.Compilation.Metadata
import QueryTemplate.Proofs.Execution.Disclosed

set_option autoImplicit false

/- What the metadata of a template lists. With the built-in extensions these are the codes and names
that the source spells out, and no others. -/

namespace QueryTemplate

theorem Json.member_ofMembers_pair {first second : String} (different : first ≠ second)
    (value other : Json) : (ofMembers [(first, value), (second, other)]).member first = value := by
  have found : Table.get? (Table.ofList [(first, value), (second, other)]) first = some value := by
    simp only [Table.ofList, List.foldl_cons, List.foldl_nil]
    rw [Table.get?_insert_of_ne _ _ different, Table.get?_insert_self]
  rw [ofMembers, member, found, Option.getD_some]

namespace Catalog

namespace Raise

/-- The code is one of those that metadata lists. -/
def Lists (metadata : Metadata) (code : String) : Prop :=
  ∃ items offset, Table.get? metadata metadataKey = some (.array items) ∧
    (Code.mk code offset).toJson ∈ items

theorem visit_eq_append (found : List Code) (element : Element) :
    visit found element = found ++ visit [] element := by
  unfold visit
  split
  · split
    · split <;> simp
    · simp
  · simp

theorem mem_visit {code : Code} {element : Element} :
    code ∈ visit [] element ↔ ∃ nameSpan args body span,
      element = .node (.tag name nameSpan args body span) ∧
        Arg.spelled? args = some code.code ∧ span.start = code.offset := by
  constructor
  · intro adds
    unfold visit at adds
    split at adds
    next tag nameSpan args body span =>
      split at adds
      next own =>
        subst own
        split at adds
        next place first =>
          cases List.mem_singleton.mp adds
          exact ⟨nameSpan, args, body, span, rfl, Arg.spelled?_eq_some.mpr ⟨place, first⟩, rfl⟩
        next => cases adds
      next => cases adds
    next => cases adds
  · rintro ⟨nameSpan, args, body, span, rfl, spelled, start⟩
    obtain ⟨place, first⟩ := Arg.spelled?_eq_some.mp spelled
    simp [visit, first, start]

theorem member_toJson (code : Code) : code.toJson.member "code" = .string code.code :=
  Json.member_ofMembers_pair (by decide) _ _

/-- The entry of the observer lists the codes that tags spell out. -/
theorem lists_iff_spells {elements : List Element} {code : String} :
    (∃ items offset, Observer.entry? ⟨.all, hooks⟩ elements = some (metadataKey, .array items) ∧
      (Code.mk code offset).toJson ∈ items) ↔ Element.Spells elements name code := by
  constructor
  · rintro ⟨items, offset, provides, within⟩
    obtain ⟨element, listed, item, adds, same⟩ :=
      Observer.added_of_collecting visit_eq_append provides within
    have equal := congrArg (Json.member · "code") same
    simp only [member_toJson, Json.string.injEq] at equal
    obtain ⟨nameSpan, args, body, span, rfl, spelled, -⟩ := mem_visit.mp adds
    exact ⟨nameSpan, args, body, span, listed, equal ▸ spelled⟩
  · rintro ⟨nameSpan, args, body, span, listed, spelled⟩
    have adds : ⟨code, span.start⟩ ∈ visit [] (.node (.tag name nameSpan args body span)) :=
      mem_visit.mpr ⟨nameSpan, args, body, span, rfl, spelled, rfl⟩
    obtain ⟨items, provides, within⟩ :=
      Observer.lists_of_collecting visit_eq_append listed rfl adds
    exact ⟨items, span.start, provides, within⟩

end Raise

namespace Request

/-- The name is one of those that metadata lists. -/
def Lists (metadata : Metadata) (requested : String) : Prop :=
  ∃ items main, Table.get? metadata metadataKey = some (.array items) ∧
    (Declaration.mk (some requested) main).toJson ∈ items

theorem visit_eq_append (found : List Declaration) (element : Element) :
    visit found element = found ++ visit [] element := by
  unfold visit
  split
  · split <;> simp
  · simp

theorem mem_visit {declaration : Declaration} {element : Element} :
    declaration ∈ visit [] element ↔ ∃ nameSpan args body span,
      element = .node (.tag name nameSpan args body span) ∧ declaration = .ofArgs args := by
  constructor
  · intro adds
    unfold visit at adds
    split at adds
    next tag nameSpan args body span =>
      split at adds
      next own =>
        subst own
        exact ⟨nameSpan, args, body, span, rfl, List.mem_singleton.mp adds⟩
      next => cases adds
    next => cases adds
  · rintro ⟨nameSpan, args, body, span, rfl, rfl⟩
    simp [visit]

theorem member_toJson (declaration : Declaration) :
    declaration.toJson.member "name" = (declaration.name.map Json.string).getD .null :=
  Json.member_ofMembers_pair (by decide) _ _

/-- The entry of the observer lists the names that tags spell out. -/
theorem lists_iff_spells {elements : List Element} {requested : String} :
    (∃ items main, Observer.entry? ⟨.all, hooks⟩ elements = some (metadataKey, .array items) ∧
      (Declaration.mk (some requested) main).toJson ∈ items) ↔
        Element.Spells elements name requested := by
  constructor
  · rintro ⟨items, main, provides, within⟩
    obtain ⟨element, listed, item, adds, same⟩ :=
      Observer.added_of_collecting visit_eq_append provides within
    have equal := congrArg (Json.member · "name") same
    simp only [member_toJson] at equal
    obtain ⟨nameSpan, args, body, span, rfl, rfl⟩ := mem_visit.mp adds
    refine ⟨nameSpan, args, body, span, listed, ?_⟩
    have own : (Declaration.ofArgs args).name = Arg.spelled? args := rfl
    rw [own] at equal
    cases spelled : Arg.spelled? args with
    | none =>
        rw [spelled] at equal
        cases equal
    | some other =>
        rw [spelled] at equal
        exact congrArg some (Json.string.inj equal)
  · rintro ⟨nameSpan, args, body, span, listed, spelled⟩
    have own : (Declaration.ofArgs args).name = some requested := spelled
    have adds : ⟨some requested, (Declaration.ofArgs args).main⟩ ∈
        visit [] (.node (.tag name nameSpan args body span)) :=
      mem_visit.mpr ⟨nameSpan, args, body, span, rfl, by rw [← own]⟩
    obtain ⟨items, provides, within⟩ :=
      Observer.lists_of_collecting visit_eq_append listed rfl adds
    exact ⟨items, _, provides, within⟩

end Request

theorem Required.key_of_entry? {elements : List Element} {key : String} {value : Json}
    (provides : Observer.entry? ⟨.all, hooks⟩ elements = some (key, value)) :
    key = metadataKey := by
  change (if _ then none else some _) = some _ at provides
  split at provides <;> cases provides
  rfl

/-- The observers of built-in extensions under the keys of what they provide. -/
def providers : Table Observer := [
  (Request.metadataKey, ⟨.all, Request.hooks⟩),
  (Raise.metadataKey, ⟨.all, Raise.hooks⟩),
  (Required.metadataKey, ⟨.all, Required.hooks⟩)]

/-- The observers of built-in tags. -/
def announcers : Table Observer := [
  (Raise.name, ⟨.all, Raise.hooks⟩),
  (Request.name, ⟨.all, Request.hooks⟩)]

end Catalog

/-- A key tells which built-in extension provides it. -/
theorem Observer.provider_of_catalog {extension : Extension} (listed : extension ∈ catalog)
    {observer : Observer} (observed : extension.observer? = some observer)
    {elements : List Element} {key : String} {value : Json}
    (provides : observer.entry? elements = some (key, value)) :
    Table.get? Catalog.providers key = some observer := by
  simp only [catalog, List.mem_cons, List.not_mem_nil, or_false] at listed
  rcases listed with rfl | rfl | rfl | rfl | rfl | rfl | rfl | rfl | rfl | rfl <;> cases observed
  case _ =>
    rw [key_of_collecting provides]
    rfl
  case _ =>
    rw [key_of_collecting provides]
    rfl
  case _ => cases provides
  case _ => cases provides
  case _ =>
    rw [Catalog.Required.key_of_entry? provides]
    rfl

theorem Observer.announcer_of_catalog {announced : String} {grammar : TagGrammar}
    {observer : Observer} (listed : .tagBuilder announced grammar observer ∈ catalog) :
    Table.get? Catalog.announcers grammar.name = some observer := by
  rcases tagBuilder_mem_catalog.mp listed with ⟨-, rfl, rfl⟩ | ⟨-, rfl, rfl⟩
  · rfl
  · rfl

namespace Environments

variable {extensions : List Extension} {envs : Environments} {template : Template}

/-- Whatever a built-in extension provides is in the metadata. -/
theorem get?_metadata_of_catalog (builtIn : ∀ extension ∈ extensions, extension ∈ catalog)
    (loads : ofExtensions extensions = .ok envs) {watcher : Watcher}
    (watches : watcher ∈ envs.watchers) {key : String} {value : Json}
    (provides : watcher.observer.entry? (Template.elements template) = some (key, value)) :
    Table.get? (envs.metadata template) key = some value := by
  refine get?_metadata_of_agreed (fun watcher' watches' value' provides' => ?_) watches provides
  obtain ⟨extension, listed, observed⟩ := observers_ofExtensions loads watcher watches
  obtain ⟨extension', listed', observed'⟩ := observers_ofExtensions loads watcher' watches'
  have provider := Observer.provider_of_catalog (builtIn _ listed) observed provides
  have provider' := Observer.provider_of_catalog (builtIn _ listed') observed' provides'
  rw [provider] at provider'
  rw [Option.some.inj provider', provides'] at provides
  exact congrArg Prod.snd (Option.some.inj provides)

/-- What the observer of a tag provides is in the metadata if the template has such a tag. -/
theorem get?_metadata_of_spells (builtIn : ∀ extension ∈ extensions, extension ∈ catalog)
    (loads : ofExtensions extensions = .ok envs)
    (registered : AllRegistered envs.compileTime.tags (Template.elements template))
    {tag text : String} (spells : Element.Spells (Template.elements template) tag text)
    {hooks : Hooks} (announces : Table.get? Catalog.announcers tag = some ⟨.all, hooks⟩)
    {key : String} {value : Json}
    (provides : Observer.entry? ⟨.all, hooks⟩ (Template.elements template) = some (key, value)) :
    Table.get? (envs.metadata template) key = some value := by
  obtain ⟨nameSpan, args, body, span, listed, -⟩ := spells
  obtain ⟨-, grammar, found, -⟩ := registered _ listed
  obtain ⟨named, announced, observer, known, watching⟩ := grammars_ofExtensions loads found
  have own := Observer.announcer_of_catalog (builtIn _ known)
  rw [named, announces] at own
  cases own
  exact get?_metadata_of_catalog builtIn loads (watching rfl) provides

/-- Whatever is in the metadata comes from the built-in extension of its key. -/
theorem entry?_of_get?_metadata (builtIn : ∀ extension ∈ extensions, extension ∈ catalog)
    (loads : ofExtensions extensions = .ok envs) {key : String} {value : Json}
    (found : Table.get? (envs.metadata template) key = some value) {observer : Observer}
    (provider : Table.get? Catalog.providers key = some observer) :
    observer.entry? (Template.elements template) = some (key, value) := by
  obtain ⟨watcher, watches, provides⟩ := provided_of_get?_metadata found
  obtain ⟨extension, listed, observed⟩ := observers_ofExtensions loads watcher watches
  have own := Observer.provider_of_catalog (builtIn _ listed) observed provides
  rw [provider] at own
  rwa [Option.some.inj own]

/-- The metadata lists the codes that the template spells out, and no others. -/
theorem lists_raised_iff (builtIn : ∀ extension ∈ extensions, extension ∈ catalog)
    (loads : ofExtensions extensions = .ok envs)
    (registered : AllRegistered envs.compileTime.tags (Template.elements template))
    (code : String) :
    Catalog.Raise.Lists (envs.metadata template) code ↔
      Element.Spells (Template.elements template) Catalog.Raise.name code := by
  constructor
  · rintro ⟨items, offset, found, within⟩
    have provides := entry?_of_get?_metadata builtIn loads found rfl
    exact Catalog.Raise.lists_iff_spells.mp ⟨items, offset, provides, within⟩
  · intro spells
    obtain ⟨items, offset, provides, within⟩ := Catalog.Raise.lists_iff_spells.mpr spells
    exact ⟨items, offset,
      get?_metadata_of_spells builtIn loads registered spells rfl provides, within⟩

/-- The metadata lists the names that the template spells out, and no others. -/
theorem lists_requested_iff (builtIn : ∀ extension ∈ extensions, extension ∈ catalog)
    (loads : ofExtensions extensions = .ok envs)
    (registered : AllRegistered envs.compileTime.tags (Template.elements template))
    (name : String) :
    Catalog.Request.Lists (envs.metadata template) name ↔
      Element.Spells (Template.elements template) Catalog.Request.name name := by
  constructor
  · rintro ⟨items, main, found, within⟩
    have provides := entry?_of_get?_metadata builtIn loads found rfl
    exact Catalog.Request.lists_iff_spells.mp ⟨items, main, provides, within⟩
  · intro spells
    obtain ⟨items, main, provides, within⟩ := Catalog.Request.lists_iff_spells.mpr spells
    exact ⟨items, main,
      get?_metadata_of_spells builtIn loads registered spells rfl provides, within⟩

end Environments

end QueryTemplate
