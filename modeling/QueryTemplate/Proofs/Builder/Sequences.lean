import QueryTemplate.Proofs.Builder.Outline

set_option autoImplicit false

/- Builders after any sequence of operations on any number of them. Each is the rendering of its
segments, and no operation cuts a statement at a wrong place. -/

namespace QueryTemplate

open Text (byteLength)
open Builder (placeholderText)

/-- There is a placeholder for each parameter, it can be read where it is said to stand, and no two
of them overlap. -/
structure Builder.Tracked (builder : Builder) : Prop where
  counted : builder.placeholders.length = builder.parameters.length
  read : ∀ (index place : Nat), builder.placeholders[index]? = some place →
    Text.slice? place (place + byteLength (placeholderText index)) builder.statement =
      some (placeholderText index)
  apart : ∀ (index other place next : Nat), index < other →
    builder.placeholders[index]? = some place → builder.placeholders[other]? = some next →
      place + byteLength (placeholderText index) ≤ next

namespace Segments

theorem le_placesFrom (start index : Nat) (bound : List (List Char × Json)) :
    ∀ place ∈ placesFrom start index bound, start ≤ place := by
  induction bound generalizing start index with
  | nil => exact fun _ within => nomatch within
  | cons entry bound ih =>
      intro place within
      rcases List.mem_cons.mp within with rfl | within
      · exact Nat.le_add_right _ _
      · have later := ih _ _ place within
        omega

theorem placed (start index : Nat) (bound : List (List Char × Json)) {ahead place : Nat}
    (found : (placesFrom start index bound)[ahead]? = some place) :
    ∃ front back, statementFrom index bound = front ++ placeholderText (index + ahead) ++ back ∧
      start + byteLength front = place := by
  induction bound generalizing start index ahead with
  | nil => cases found
  | cons entry bound ih =>
      obtain ⟨text, value⟩ := entry
      cases ahead with
      | zero =>
          cases found
          exact ⟨text, statementFrom (index + 1) bound, rfl, rfl⟩
      | succ ahead =>
          obtain ⟨front, back, whole, starts⟩ := ih _ _ found
          refine ⟨text ++ placeholderText index ++ front, back, ?_, ?_⟩
          · rw [statementFrom, whole, Nat.add_right_comm index 1, ← Nat.add_assoc]
            simp only [List.append_assoc]
          · simp only [Text.byteLength_append]
            omega

theorem placesFrom_apart (start index : Nat) (bound : List (List Char × Json))
    {ahead further place next : Nat} (order : ahead < further)
    (found : (placesFrom start index bound)[ahead]? = some place)
    (later : (placesFrom start index bound)[further]? = some next) :
    place + byteLength (placeholderText (index + ahead)) ≤ next := by
  induction bound generalizing start index ahead further with
  | nil => cases found
  | cons entry bound ih =>
      obtain ⟨text, value⟩ := entry
      cases further with
      | zero => exact absurd order (Nat.not_lt_zero _)
      | succ further =>
          cases ahead with
          | zero =>
              cases found
              exact le_placesFrom _ _ bound next (List.mem_of_getElem? later)
          | succ ahead =>
              have apart := ih _ _ (Nat.lt_of_succ_lt_succ order) found later
              rwa [Nat.add_right_comm index 1, Nat.add_assoc index] at apart

theorem tracked_render (segments : Segments) (name : Option String) :
    (segments.render name).Tracked where
  counted := (length_placesFrom 0 0 segments.bound).trans (List.length_map _).symm
  read := by
    intro index place found
    obtain ⟨front, back, whole, starts⟩ := placed 0 0 segments.bound found
    rw [Nat.zero_add] at whole starts
    have part := Text.slice?_part front (placeholderText index) (back ++ segments.rest) starts rfl
    rwa [← List.append_assoc, ← whole] at part
  apart := by
    intro index other place next order found later
    have apart := placesFrom_apart 0 0 segments.bound order found later
    rwa [Nat.zero_add] at apart

end Segments

/-- One builder is another without the white space around its statement. -/
structure Builder.Trims (trimmed builder : Builder) : Prop where
  name : trimmed.name = builder.name
  parameters : trimmed.parameters = builder.parameters
  parts : ∃ front back, builder.statement = front ++ trimmed.statement ++ back ∧
    (∀ c ∈ front ++ back, Text.isBlank c = true) ∧
    builder.placeholders = trimmed.placeholders.map (byteLength front + ·)
  starts : ∀ c ∈ trimmed.statement.head?, Text.isBlank c = false
  ends : ∀ c ∈ trimmed.statement.getLast?, Text.isBlank c = false

theorem Segments.trims_render (segments : Segments) (name : Option String) :
    (segments.render name).trim.Trims (segments.render name) := by
  obtain ⟨front, back, whole, length, blank, starts, ends⟩ :=
    Text.trim_parts (segments.raw name).statement
  have moved := segments.places_trim name
  rw [leading, ← length] at moved
  rw [trim_statement] at whole starts ends
  rw [trim_render]
  exact ⟨rfl, parameters_trim segments name, ⟨front, back, whole, blank, moved⟩, starts, ends⟩

/-- An operation on a row of builders, which go by their positions. Where one of them is missing
nothing happens. -/
inductive Builder.Step
  | new
  | named (name : String)
  | push (target : Nat) (text : List Char)
  | bind (target : Nat) (value : Json)
  /-- Appends a copy of a builder, possibly of the target itself. -/
  | append (target source : Nat)
  | trim (target : Nat)

/-- What the operations do to that which stands for a builder; some of them may fail. -/
structure Operations (α : Type) where
  new : Option String → α
  push : α → List Char → α
  bind : α → Json → α
  append : α → α → Option α
  trim : α → Option α

namespace Operations

variable {α β : Type}

/-- Changes the item at a position, if there is one. -/
def change (items : List α) (target : Nat) (operation : α → Option α) : Option (List α) :=
  match items[target]? with
  | some item => (operation item).map (items.set target)
  | none => some items

def step (ops : Operations α) (items : List α) : Builder.Step → Option (List α)
  | .new => some (items ++ [ops.new none])
  | .named name => some (items ++ [ops.new (some name)])
  | .push target text => change items target fun item => some (ops.push item text)
  | .bind target value => change items target fun item => some (ops.bind item value)
  | .append target source =>
    match items[source]? with
    | some other => change items target fun item => ops.append item other
    | none => some items
  | .trim target => change items target ops.trim

def run (ops : Operations α) (steps : List Builder.Step) : Option (List α) :=
  steps.foldlM ops.step []

/-- One thing stands for another if each operation on the one is that on the other. -/
structure Shows (ops : Operations α) (others : Operations β) (view : β → α) : Prop where
  new : ∀ name, ops.new name = view (others.new name)
  push : ∀ item text, ops.push (view item) text = view (others.push item text)
  bind : ∀ item value, ops.bind (view item) value = view (others.bind item value)
  append : ∀ item other, ops.append (view item) (view other) = (others.append item other).map view
  trim : ∀ item, ops.trim (view item) = (others.trim item).map view

variable {ops : Operations α} {others : Operations β} {view : β → α}

theorem change_map {operation : α → Option α} {other : β → Option β}
    (same : ∀ item, operation (view item) = (other item).map view) (items : List β) (target : Nat) :
    change (items.map view) target operation = (change items target other).map (List.map view) := by
  rw [change, change, List.getElem?_map]
  cases items[target]? with
  | none => rfl
  | some item =>
      rw [Option.map_some]
      simp only [same, Option.map_map]
      congr 1
      funext changed
      exact (List.map_set ..).symm

theorem Shows.step (shows : Shows ops others view) (items : List β) (step : Builder.Step) :
    ops.step (items.map view) step = (others.step items step).map (List.map view) := by
  cases step with
  | new => simp [Operations.step, shows.new]
  | named name => simp [Operations.step, shows.new]
  | push target text => exact change_map (fun item => congrArg some (shows.push item text)) ..
  | bind target value => exact change_map (fun item => congrArg some (shows.bind item value)) ..
  | append target source =>
      rw [Operations.step, Operations.step, List.getElem?_map]
      cases items[source]? with
      | none => rfl
      | some other => exact change_map (fun item => shows.append item other) ..
  | trim target => exact change_map shows.trim ..

theorem Shows.run (shows : Shows ops others view) (steps : List Builder.Step) :
    ops.run steps = (others.run steps).map (List.map view) := by
  suffices each : ∀ items : List β, steps.foldlM ops.step (items.map view) =
      (steps.foldlM others.step items).map (List.map view) from each []
  induction steps with
  | nil => exact fun _ => rfl
  | cons step steps ih =>
      intro items
      rw [List.foldlM_cons, List.foldlM_cons, shows.step]
      cases others.step items step with
      | none => rfl
      | some after => exact ih after

end Operations

namespace Outline

/-- On segments no operation fails. -/
def operations : Operations Outline where
  new name := { name }
  push outline text := { outline with segments := outline.segments ++ [.text text] }
  bind outline value := { outline with segments := outline.segments ++ [.parameter value] }
  append outline other := some (outline.append other)
  trim outline := some outline.trim

theorem step_isSome (outlines : List Outline) (step : Builder.Step) :
    ∃ after, operations.step outlines step = some after := by
  apply Option.isSome_iff_exists.mp
  cases step with
  | new => rfl
  | named name => rfl
  | append target source =>
      simp only [Operations.step, Operations.change]
      cases outlines[source]? <;> cases outlines[target]? <;> rfl
  | _ target =>
      simp only [Operations.step, Operations.change]
      cases outlines[target]? <;> rfl

theorem run_isSome (steps : List Builder.Step) :
    ∃ outlines, operations.run steps = some outlines := by
  suffices each : ∀ outlines, ∃ after, steps.foldlM operations.step outlines = some after from each []
  induction steps with
  | nil => exact fun outlines => ⟨outlines, rfl⟩
  | cons step steps ih =>
      intro outlines
      obtain ⟨after, stepped⟩ := step_isSome outlines step
      obtain ⟨last, finished⟩ := ih after
      exact ⟨last, by rw [List.foldlM_cons, stepped]; exact finished⟩

theorem push_render (outline : Outline) (text : List Char) :
    outline.render.push text = (operations.push outline text).render := by
  simp only [operations, Segments.render_ofList, Segments.push_render, Segments.ofList_append]
  simp [Segments.ofList, Segments.append, Segments.push, Segment.single, Segments.empty]

theorem bind_render (outline : Outline) (value : Json) :
    outline.render.bind value = (operations.bind outline value).render := by
  simp only [operations, Segments.render_ofList, Segments.bind_render, Segments.ofList_append]
  simp [Segments.ofList, Segments.append, Segments.bind, Segments.push, Segment.single,
    Segments.empty]

theorem append_render (outline other : Outline) :
    outline.render.append other.render = (outline.append other).render := by
  simp only [Segments.render_ofList, Segments.append_render, append, Segments.ofList_append]

end Outline

namespace Builder

/-- The operations of builders. -/
def operations : Operations Builder where
  new
    | none => empty
    | some name => named name
  push := push
  bind := bind
  append builder other := some (builder.append other)
  trim builder := some builder.trim

/-- The operations on fields alone, with every slice and every subtraction checked. -/
def checkedOperations : Operations Raw where
  new name := { name }
  push := Raw.push
  bind := Raw.bind
  append := Raw.append?
  trim := Raw.trim?

/-- Each text and then its parameter. -/
def boundSteps (bound : List (List Char × Json)) : List Step :=
  bound.flatMap fun entry => [.push 0 entry.1, .bind 0 entry.2]

theorem foldlM_boundSteps (name : Option String) (front bound : List (List Char × Json)) :
    (boundSteps bound).foldlM operations.step [Segments.render ⟨front, []⟩ name] =
      some [Segments.render ⟨front ++ bound, []⟩ name] := by
  induction bound generalizing front with
  | nil =>
      rw [List.append_nil]
      rfl
  | cons entry bound ih =>
      have pushed : operations.step [Segments.render ⟨front, []⟩ name] (.push 0 entry.1) =
          some [Segments.render ⟨front, entry.1⟩ name] :=
        congrArg (fun builder => some [builder]) (Segments.push_render _ name entry.1)
      have written : operations.step [Segments.render ⟨front, entry.1⟩ name] (.bind 0 entry.2) =
          some [Segments.render ⟨front ++ [entry], []⟩ name] :=
        congrArg (fun builder => some [builder]) (Segments.bind_render _ name entry.2)
      have after := ih (front ++ [entry])
      rw [List.append_assoc, List.singleton_append] at after
      rw [boundSteps, List.flatMap_cons, List.cons_append, List.cons_append, List.nil_append,
        List.foldlM_cons, pushed, Option.bind_eq_bind, Option.bind_some, List.foldlM_cons, written]
      exact after

/-- Every builder can be made by operations. -/
theorem exists_steps (builder : Builder) : ∃ steps, operations.run steps = some [builder] := by
  obtain ⟨⟨bound, rest⟩, shown⟩ := Segments.exists_render builder
  have begun : ∃ first, operations.step [] first = some [Segments.render {} builder.name] := by
    cases builder.name with
    | none => exact ⟨.new, rfl⟩
    | some name => exact ⟨.named name, rfl⟩
  obtain ⟨first, begun⟩ := begun
  have ended : operations.step [Segments.render ⟨bound, []⟩ builder.name] (.push 0 rest) =
      some [builder] := by
    conv => rhs; rw [shown]
    exact congrArg (fun builder => some [builder]) (Segments.push_render _ builder.name rest)
  refine ⟨first :: (boundSteps bound ++ [.push 0 rest]), ?_⟩
  rw [Operations.run, List.foldlM_cons, begun, Option.bind_eq_bind, Option.bind_some,
    List.foldlM_append, foldlM_boundSteps, List.nil_append, Option.bind_eq_bind, Option.bind_some,
    List.foldlM_cons, ended]
  rfl

theorem operations_shows : operations.Shows Outline.operations Outline.render where
  new name := by cases name <;> rfl
  push := Outline.push_render
  bind := Outline.bind_render
  append outline other := congrArg some (outline.append_render other)
  trim outline := congrArg some (Segments.render_trim outline).symm

/-- On the fields of builders no operation fails. -/
theorem checkedOperations_shows : checkedOperations.Shows operations Builder.toRaw where
  new name := by cases name <;> rfl
  push _ _ := rfl
  bind _ _ := rfl
  append := append?_toRaw
  trim := trim?_toRaw

/-- After every sequence of operations each builder is the rendering of its segments, with all
placeholders where they are said to stand, and no slice or subtraction has failed. Appending joins
segments, and trimming takes away nothing but white space around a statement. -/
theorem run_renders (steps : List Builder.Step) :
    ∃ outlines, Outline.operations.run steps = some outlines ∧
      operations.run steps = some (outlines.map Outline.render) ∧
      checkedOperations.run steps = some (outlines.map Outline.raw) ∧
      (∀ outline ∈ outlines, outline.render.Tracked ∧ outline.render.trim.Trims outline.render) ∧
      ∀ first ∈ outlines, ∀ second ∈ outlines, ∀ third ∈ outlines,
        first.render.append second.render =
          (⟨first.name, first.segments ++ second.segments⟩ : Outline).render ∧
        (first.render.append second.render).append third.render =
          first.render.append (second.render.append third.render) := by
  obtain ⟨outlines, ran⟩ := Outline.run_isSome steps
  have rendered : operations.run steps = some (outlines.map Outline.render) := by
    rw [operations_shows.run, ran, Option.map_some]
  refine ⟨outlines, ran, rendered, ?_, ?_, ?_⟩
  · rw [checkedOperations_shows.run, rendered, Option.map_some, List.map_map]
    rfl
  · intro outline _
    rw [Segments.render_ofList]
    exact ⟨Segments.tracked_render _ _, Segments.trims_render _ _⟩
  · intro first _ second _ third _
    refine ⟨first.append_render second, ?_⟩
    simp only [Outline.append_render, Outline.append, List.append_assoc]

/-- A builder that is trimmed after it was appended to itself: raw text that looks like a
placeholder is copied as it is. -/
theorem run_renders_itself :
    let steps : List Step :=
      [.named "q", .push 0 "\n é $1 = ".toList, .bind 0 (.nat 7), .append 0 0, .trim 0]
    ∃ outline : Outline, checkedOperations.run steps = some [outline.raw] ∧ outline.render.Tracked ∧
      outline.render.statement = "é $1 = $1\n é $1 = $2".toList ∧
      outline.render.placeholders = [8, 20] := by
  intro steps
  obtain ⟨outlines, ran, -, checked, each, -⟩ := run_renders steps
  cases ran
  exact ⟨_, checked, (each _ List.mem_cons_self).1, by decide, by decide⟩

end Builder

end QueryTemplate
