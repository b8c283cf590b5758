import QueryTemplate.Compilation.Basic
import QueryTemplate.Proofs.Compilation.RoundTrip
import QueryTemplate.Proofs.Template.Building

set_option autoImplicit false

/- What the metadata of a template says. Of the observers that provide a key the last one decides,
so an entry that they agree on is there. An observer that collects from tags lists what every tag
adds, and nothing else. -/

namespace QueryTemplate

/-- The entry that an observer provides for the elements of a template. -/
def Observer.entry? (observer : Observer) (elements : List Element) : Option (String × Json) :=
  if observer.capabilities.provideMetadata then
    let seen := elements.filter fun element =>
      observer.capabilities.astVisit && observer.hooks.interestedIn element.kind
    observer.hooks.contribution (seen.foldl observer.hooks.visit observer.hooks.initial)
  else none

/-- Hooks that gather items from tags, in document order, into an array under a key. -/
def Hooks.collecting {α : Type} (visit : List α → Element → List α) (key : String)
    (toJson : α → Json) : Hooks where
  State := List α
  initial := []
  interestedIn := fun kind => kind == .tag
  visit := visit
  contribution := fun found =>
    if found.isEmpty then none else some (key, .array (found.map toJson))

namespace Observer

section Collecting

variable {α : Type} {visit : List α → Element → List α} {key : String}
  {toJson : α → Json} {elements : List Element}

theorem entry?_collecting (visit : List α → Element → List α) (key : String) (toJson : α → Json)
    (elements : List Element) :
    entry? ⟨.all, .collecting visit key toJson⟩ elements =
      let found := (elements.filter fun element => element.kind == .tag).foldl visit []
      if found.isEmpty then none else some (key, .array (found.map toJson)) := rfl

theorem key_of_collecting {other : String} {value : Json}
    (provides : entry? ⟨.all, .collecting visit key toJson⟩ elements = some (other, value)) :
    other = key := by
  rw [entry?_collecting] at provides
  dsimp only at provides
  split at provides <;> cases provides
  rfl

/-- An item is listed just when some tag adds it. -/
theorem mem_collected (appends : ∀ found element, visit found element = found ++ visit [] element)
    {item : α} :
    item ∈ (elements.filter fun element => element.kind == .tag).foldl visit [] ↔
      ∃ element ∈ elements, element.kind = .tag ∧ item ∈ visit [] element := by
  rw [funext₂ appends, List.foldl_append_eq_append, List.nil_append]
  simp only [List.mem_flatten, List.mem_map, List.mem_filter, beq_iff_eq]
  constructor
  · rintro ⟨_, ⟨element, ⟨listed, tag⟩, rfl⟩, within⟩
    exact ⟨element, listed, tag, within⟩
  · rintro ⟨element, listed, tag, within⟩
    exact ⟨_, ⟨element, ⟨listed, tag⟩, rfl⟩, within⟩

theorem lists_of_collecting
    (appends : ∀ found element, visit found element = found ++ visit [] element)
    {element : Element} (listed : element ∈ elements) (tag : element.kind = .tag) {item : α}
    (adds : item ∈ visit [] element) :
    ∃ items, entry? ⟨.all, .collecting visit key toJson⟩ elements = some (key, .array items) ∧
      toJson item ∈ items := by
  have found := (mem_collected appends).mpr ⟨element, listed, tag, adds⟩
  refine ⟨_, ?_, List.mem_map_of_mem found⟩
  rw [entry?_collecting]
  apply if_neg
  rw [List.isEmpty_iff]
  exact List.ne_nil_of_mem found

theorem added_of_collecting
    (appends : ∀ found element, visit found element = found ++ visit [] element) {items : List Json}
    (provides : entry? ⟨.all, .collecting visit key toJson⟩ elements = some (key, .array items))
    {value : Json} (within : value ∈ items) :
    ∃ element ∈ elements, ∃ item ∈ visit [] element, toJson item = value := by
  rw [entry?_collecting] at provides
  dsimp only at provides
  split at provides
  next => cases provides
  next =>
    cases provides
    obtain ⟨item, found, rfl⟩ := List.mem_map.mp within
    obtain ⟨element, listed, -, adds⟩ := (mem_collected appends).mp found
    exact ⟨element, listed, item, adds, rfl⟩

end Collecting

end Observer

namespace Session

theorem foldl_visit (elements : List Element) (session : Session) :
    elements.foldl visit session =
      { session with
        state := (elements.filter session.sees).foldl session.hooks.visit session.state } := by
  induction elements generalizing session with
  | nil => rfl
  | cons element rest ih =>
      rw [List.foldl_cons, ih, visit]
      by_cases seen : session.sees element
      · rw [if_pos seen, List.filter_cons_of_pos seen]
        rfl
      · rw [if_neg seen, List.filter_cons_of_neg seen]

/-- Every session goes through the elements by itself. -/
theorem walk_eq_map (elements : List Element) (sessions : List Session) :
    walk elements sessions = sessions.map fun session => elements.foldl visit session := by
  induction elements generalizing sessions with
  | nil => exact (List.map_id sessions).symm
  | cons element rest ih =>
      rw [walk, List.foldl_cons]
      exact (ih _).trans List.map_map

theorem contribution?_foldl_visit (elements : List Element) (watcher : Watcher) :
    (elements.foldl visit (start watcher)).contribution? = watcher.observer.entry? elements := by
  rw [foldl_visit]
  rfl

/-- The value that a session provides for a key. -/
def value? (session : Session) (key : String) : Option Json :=
  match session.contribution? with
  | some (name, value) => if name = key then some value else none
  | none => none

theorem value?_eq_some {session : Session} {key : String} {value : Json} :
    session.value? key = some value ↔ session.contribution? = some (key, value) := by
  unfold value?
  split
  next name given provides => simp [provides]
  next provides => simp [provides]

theorem get?_contribute (metadata : Metadata) (session : Session) (key : String) :
    Table.get? (contribute metadata session) key =
      (session.value? key).or (Table.get? metadata key) := by
  cases provides : session.contribution? with
  | none => simp only [contribute, value?, provides, Option.none_or]
  | some entry =>
      obtain ⟨name, value⟩ := entry
      simp only [contribute, value?, provides]
      by_cases same : name = key
      · rw [same, if_pos rfl, Table.get?_insert_self, Option.some_or]
      · rw [if_neg same, Table.get?_insert_of_ne _ _ (Ne.symm same), Option.none_or]

/-- The last session that provides a key decides its value. -/
theorem get?_foldl_contribute (sessions : List Session) (metadata : Metadata) (key : String) :
    Table.get? (sessions.foldl contribute metadata) key =
      (sessions.reverse.findSome? (·.value? key)).or (Table.get? metadata key) := by
  induction sessions generalizing metadata with
  | nil => rfl
  | cons session rest ih =>
      rw [List.foldl_cons, ih, get?_contribute, List.reverse_cons, List.findSome?_append,
        List.findSome?_singleton, Option.or_assoc]

end Session

namespace Environments

variable {envs : Environments} {template : Template}

theorem get?_metadata (envs : Environments) (template : Template) (key : String) :
    Table.get? (envs.metadata template) key =
      envs.watchers.reverse.findSome? fun watcher =>
        ((Template.elements template).foldl Session.visit (Session.start watcher)).value? key := by
  rw [metadata, Session.aggregate, sessions, Session.walk_eq_map, Session.get?_foldl_contribute,
    Table.get?_nil, Option.or_none, List.map_map, ← List.map_reverse, List.findSome?_map]
  rfl

theorem value?_eq_some {watcher : Watcher} {key : String} {value : Json} :
    ((Template.elements template).foldl Session.visit (Session.start watcher)).value? key =
        some value ↔
      watcher.observer.entry? (Template.elements template) = some (key, value) := by
  rw [Session.value?_eq_some, Session.contribution?_foldl_visit]

/-- Some watcher provides what the metadata holds. -/
theorem provided_of_get?_metadata {key : String} {value : Json}
    (found : Table.get? (envs.metadata template) key = some value) :
    ∃ watcher ∈ envs.watchers,
      watcher.observer.entry? (Template.elements template) = some (key, value) := by
  rw [get?_metadata] at found
  obtain ⟨watcher, within, provides⟩ := List.exists_of_findSome?_eq_some found
  exact ⟨watcher, List.mem_reverse.mp within, value?_eq_some.mp provides⟩

/-- The metadata holds what a watcher provides if all that provide the key agree. -/
theorem get?_metadata_of_agreed {key : String} {value : Json}
    (agreed : ∀ watcher ∈ envs.watchers, ∀ other,
      watcher.observer.entry? (Template.elements template) = some (key, other) → other = value)
    {watcher : Watcher} (watches : watcher ∈ envs.watchers)
    (provides : watcher.observer.entry? (Template.elements template) = some (key, value)) :
    Table.get? (envs.metadata template) key = some value := by
  cases found : Table.get? (envs.metadata template) key with
  | none =>
      rw [get?_metadata] at found
      have absent := List.findSome?_eq_none_iff.mp found watcher (List.mem_reverse.mpr watches)
      rw [value?_eq_some.mpr provides] at absent
      cases absent
  | some other =>
      obtain ⟨provider, within, given⟩ := provided_of_get?_metadata found
      rw [agreed provider within other given]

/-- Under a key that only one watcher provides, and that it provides alone, the metadata has what that
watcher provides. -/
theorem get?_metadata_of_sole {key : String} {watcher : Watcher} (watches : watcher ∈ envs.watchers)
    (sole : ∀ other ∈ envs.watchers, ∀ value,
      other.observer.entry? (Template.elements template) = some (key, value) →
        other.observer = watcher.observer)
    (own : ∀ other value,
      watcher.observer.entry? (Template.elements template) = some (other, value) → other = key) :
    Table.get? (envs.metadata template) key =
      (watcher.observer.entry? (Template.elements template)).map Prod.snd := by
  cases provides : watcher.observer.entry? (Template.elements template) with
  | none =>
      rw [Option.map_none, Option.eq_none_iff_forall_ne_some]
      intro value found
      obtain ⟨other, within, given⟩ := provided_of_get?_metadata found
      rw [sole other within value given, provides] at given
      cases given
  | some entry =>
      obtain ⟨other, value⟩ := entry
      obtain rfl := own other value provides
      refine get?_metadata_of_agreed (fun provider within value' given => ?_) watches provides
      rw [sole provider within value' given, provides] at given
      exact (congrArg Prod.snd (Option.some.inj given)).symm

/-- The metadata that comes with the code of a source is that of its tree. -/
theorem metadata_compile {source : String} {compiled : Compiled}
    (parsed : Template.parse envs.compileTime.tags source = .ok template)
    (compiles : envs.compile source = .ok compiled) :
    compiled.metadata = envs.metadata template := by
  obtain ⟨_, analyzed, -, -⟩ := compile_eq_ok compiles
  unfold analyze at analyzed
  rw [parsed] at analyzed
  exact (congrArg Prod.snd (Except.ok.inj analyzed)).symm

/-- The tags of a tree have been announced. -/
theorem registered_parse {source : String}
    (parsed : Template.parse envs.compileTime.tags source = .ok template) :
    AllRegistered envs.compileTime.tags (Template.elements template) := by
  obtain ⟨chunks, -, built⟩ := Template.built_of_parse parsed
  exact built.registered

end Environments

end QueryTemplate
