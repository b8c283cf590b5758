import QueryTemplate.Catalog.Tags
import QueryTemplate.Proofs.Builder.Rendering
import QueryTemplate.Proofs.Code.Programs
import QueryTemplate.Proofs.Execution.Authored

set_option autoImplicit false

/- The codes that an execution raises, and the name of the builder that it exports. Tags take both
from their first argument. Where the source spells that argument out, so it spells every code and
every name that an execution can come up with. -/

namespace QueryTemplate

namespace Arg

/-- The first positional argument if it is a string literal. -/
def spelled? (args : List Arg) : Option String :=
  match args.findSome? positional? with
  | some (.literal (.string text) _) => some text
  | _ => none

/-- Whether the first positional argument, if there is one, is a string literal. -/
def isSpelled (args : List Arg) : Bool :=
  (args.findSome? positional?).all fun _ => (spelled? args).isSome

theorem spelled?_eq_some {args : List Arg} {text : String} :
    spelled? args = some text ↔
      ∃ place, args.findSome? positional? = some (.literal (.string text) place) := by
  unfold spelled?
  split
  next other place found => simp [found]
  next unspelled => simpa using fun place => unspelled text place

end Arg

namespace Element

/-- Whether a tag that raises a code or names a request spells it out. -/
def isSpelled : Element → Bool
  | .node (.tag name _ args _ _) =>
    !(name == Catalog.Raise.name || name == Catalog.Request.name) || Arg.isSpelled args
  | _ => true

/-- Some tag of the name spells out the text. -/
def Spells (elements : List Element) (tag text : String) : Prop :=
  ∃ nameSpan args body span, .node (.tag tag nameSpan args body span) ∈ elements ∧
    Arg.spelled? args = some text

end Element

/-- An effect that exports no builder under another name. -/
def TagEffect.Names (names : String → Prop) : TagEffect → Prop
  | setVariable _ _ => True
  | setBuilder _ _ => True
  | write output => output.name = none
  | deliver builder => ∀ name, builder.name = some name → names name

/-- A tag that raises nothing but its first argument, and only as `error`, and that names an export
only after its first argument, and only as `req`. -/
structure TagRunner.Candid (tag : String) (run : TagRunner) : Prop where
  raised : ∀ context code, run context = .error (.raised code) →
    tag = Catalog.Raise.name ∧ context.args.head? = some (.string code)
  named : ∀ context effects, run context = .ok effects → context.output.name = none →
    ∀ effect ∈ effects, effect.Names fun name =>
      tag = Catalog.Request.name ∧ context.args.head? = some (.string name)

def FilterRunner.Candid (filter : FilterRunner) : Prop :=
  ∀ target args code, filter.transform target args ≠ .error (.raised code)

structure RuntimeEnvironment.Candid (env : RuntimeEnvironment) : Prop where
  tags : ∀ tag run, Table.get? env.tags tag = some run → run.Candid tag
  filters : ∀ name filter, Table.get? env.filters name = some filter → filter.Candid

/-- An evaluation that raises only codes that the elements spell out, and whose result is as it
should be. -/
structure Discloses {α : Type} (elements : List Element) (post : α → Prop)
    (result : Except RuntimeError α) : Prop where
  raised : ∀ code, result = .error (.extension (.raised code)) →
    Element.Spells elements Catalog.Raise.name code
  gives : Gives post result

namespace Discloses

variable {α β : Type} {elements : List Element} {post : α → Prop} {final : β → Prop}

theorem ok {value : α} (holds : post value) : Discloses elements post (.ok value) where
  raised := fun _ failed => nomatch failed
  gives := .ok holds

theorem error {failure : RuntimeError} (other : ∀ code, failure ≠ .extension (.raised code)) :
    Discloses elements post (.error failure) where
  raised := fun code failed => absurd (Except.error.inj failed) (other code)
  gives := .error failure

theorem bind {result : Except RuntimeError α} {next : α → Except RuntimeError β}
    (first : Discloses elements post result)
    (rest : ∀ value, result = .ok value → post value → Discloses elements final (next value)) :
    Discloses elements final (result >>= next) := by
  cases result with
  | error failure =>
      refine ⟨?_, .error failure⟩
      rintro code ⟨⟩
      exact first.raised code rfl
  | ok value => exact rest value rfl (first.gives value rfl)

end Discloses

/-- What a scene writes to has no name, and what it exports has a name only if some `req` spells it
out. -/
structure Scene.Disclosed (elements : List Element) (scene : Scene) : Prop where
  output : scene.output.name = none
  exported : ∀ builder name, scene.exported = some builder → builder.name = some name →
    Element.Spells elements Catalog.Request.name name

variable {elements : List Element} {around : Surroundings} {scene : Scene}

namespace Scene.Disclosed

theorem start : Scene.start.Disclosed elements := ⟨rfl, fun _ _ absent => nomatch absent⟩

theorem write (disclosed : scene.Disclosed elements) (text : String) :
    (scene.write text).Disclosed elements := ⟨disclosed.output, disclosed.exported⟩

theorem emit (disclosed : scene.Disclosed elements) (slot : Slot) :
    (scene.emit slot).Disclosed elements := by
  cases slot with
  | data value => exact ⟨disclosed.output, disclosed.exported⟩
  | builder builder =>
      exact ⟨(scene.output.name_append builder).trans disclosed.output, disclosed.exported⟩

theorem assign (disclosed : scene.Disclosed elements) (name : String) (slot : Slot) :
    (scene.assign name slot).Disclosed elements := by
  unfold Scene.assign
  split
  · exact disclosed
  · exact ⟨disclosed.output, disclosed.exported⟩

theorem bindItem (disclosed : scene.Disclosed elements) (var : String) (item : Json)
    (index length : Nat) : (scene.bindItem var item index length).Disclosed elements :=
  (disclosed.assign _ _).assign _ _

theorem openLoop (disclosed : scene.Disclosed elements) : scene.openLoop.Disclosed elements :=
  ⟨disclosed.output, disclosed.exported⟩

theorem closeLoop (disclosed : scene.Disclosed elements) : scene.closeLoop.Disclosed elements :=
  ⟨disclosed.output, disclosed.exported⟩

theorem perform (disclosed : scene.Disclosed elements) {effect : TagEffect}
    (names : effect.Names (Element.Spells elements Catalog.Request.name)) :
    (scene.perform effect).Disclosed elements := by
  cases effect with
  | setVariable name value => exact disclosed.assign _ _
  | setBuilder name builder => exact disclosed.assign _ _
  | write output => exact ⟨names, disclosed.exported⟩
  | deliver builder =>
      refine ⟨disclosed.output, ?_⟩
      rintro _ name ⟨⟩ named
      exact names name named

theorem performAll (disclosed : scene.Disclosed elements) {effects : List TagEffect}
    (names : ∀ effect ∈ effects, effect.Names (Element.Spells elements Catalog.Request.name)) :
    (effects.foldl Scene.perform scene).Disclosed elements := by
  induction effects generalizing scene with
  | nil => exact disclosed
  | cons effect effects ih =>
      obtain ⟨head, tail⟩ := List.forall_mem_cons.mp names
      exact ih (disclosed.perform head) tail

end Scene.Disclosed

theorem TagEffect.Names.imp {names others : String → Prop} {effect : TagEffect}
    (given : effect.Names names) (weaker : ∀ name, names name → others name) :
    effect.Names others := by
  cases effect with
  | deliver builder => exact fun name named => weaker name (given name named)
  | _ => exact given

theorem Surroundings.discloses_load (frames : List Frame) (name : String) :
    Discloses elements (fun _ => True) (around.load frames name) := by
  unfold load
  split
  next => exact .ok trivial
  next =>
    split
    · exact .error fun _ same => nomatch same
    · exact .ok trivial

theorem Surroundings.discloses_applyFilter (candid : around.runtime.Candid) (awaited : Bool)
    (name : String) (target : Json) (args : List Json) :
    Discloses elements (fun _ => True) (around.applyFilter awaited name target args) := by
  unfold applyFilter
  split
  next => exact .error fun _ same => nomatch same
  next filter found =>
    split
    next => exact .error fun _ same => nomatch same
    next =>
      split
      next failure failed =>
        apply Discloses.error
        rintro code ⟨⟩
        exact candid.filters name filter found _ _ code failed
      next => exact .ok trivial

mutual

/-- Expressions raise nothing. -/
theorem Expr.discloses_eval (candid : around.runtime.Candid) (expr : Expr) (frames : List Frame) :
    Discloses elements (fun _ => True) (expr.eval around frames) := by
  match expr with
  | .literal _ _ => exact .ok trivial
  | .var name _ => exact Surroundings.discloses_load frames name
  | .attr target _ _ =>
      exact (Expr.discloses_eval candid target frames).bind fun _ _ _ => .ok trivial
  | .filter _ target name _ args _ =>
      apply (Expr.discloses_eval candid target frames).bind
      intro value _ _
      apply (Expr.discloses_listEval candid args frames).bind
      intro values _ _
      exact Surroundings.discloses_applyFilter candid _ _ _ _
  | .negate operand _ =>
      exact (Expr.discloses_eval candid operand frames).bind fun _ _ _ => .ok trivial
  | .binary op left right _ =>
      have first := Expr.discloses_eval candid left frames
      have second := Expr.discloses_eval candid right frames
      cases op
      case and =>
        apply first.bind
        intro value _ _
        split
        · exact second
        · exact .ok trivial
      case or =>
        apply first.bind
        intro value _ _
        split
        · exact .ok trivial
        · exact second
      all_goals exact first.bind fun _ _ _ => second.bind fun _ _ _ => .ok trivial

theorem Expr.discloses_listEval (candid : around.runtime.Candid) (exprs : List Expr)
    (frames : List Frame) :
    Discloses elements (fun _ => True) (Expr.listEval around frames exprs) := by
  match exprs with
  | [] => exact .ok trivial
  | expr :: rest =>
      apply (Expr.discloses_eval candid expr frames).bind
      intro value _ _
      exact (Expr.discloses_listEval candid rest frames).bind fun _ _ _ => .ok trivial

end

/-- A string that leads the values of spelled arguments is the one that they spell. -/
theorem Arg.spelled?_of_listEval {args : List Arg} (spelled : Arg.isSpelled args)
    {frames : List Frame} {slots : List Slot}
    (evaluated : Expr.listEval around frames (Arg.positionals args) = .ok slots) {text : String}
    (head : (slots.map Slot.toJson).head? = some (.string text)) :
    Arg.spelled? args = some text := by
  have first : (Arg.positionals args).head? = args.findSome? Arg.positional? :=
    List.head?_filterMap
  rw [Arg.isSpelled, ← first] at spelled
  cases positionals : Arg.positionals args with
  | nil =>
      rw [positionals] at evaluated
      cases evaluated
      cases head
  | cons expr rest =>
      rw [positionals] at evaluated spelled
      obtain ⟨other, spells⟩ := Option.isSome_iff_exists.mp spelled
      obtain ⟨place, found⟩ := Arg.spelled?_eq_some.mp spells
      rw [← first, positionals] at found
      cases found
      -- the literal leads the values
      rw [Expr.listEval, Expr.eval] at evaluated
      cases others : Expr.listEval around frames rest with
      | error failure =>
          rw [others] at evaluated
          cases evaluated
      | ok values =>
          rw [others] at evaluated
          cases evaluated
          cases head
          exact spells

/-- A tag of the template raises and exports what it spells out. -/
theorem Scene.Disclosed.callTag (disclosed : scene.Disclosed elements)
    (candid : around.runtime.Candid) (spelled : ∀ element ∈ elements, element.isSpelled)
    {name : String} {nameSpan : Span} {args : List Arg} {inside : Option (List Node)} {span : Span}
    (listed : .node (.tag name nameSpan args inside span) ∈ elements) {frames : List Frame}
    {slots : List Slot}
    (evaluated : Expr.listEval around frames (Arg.positionals args) = .ok slots)
    (keys : List String) (values : List Slot) (body : Option Builder) :
    Discloses elements (Scene.Disclosed elements)
      (scene.callTag around name slots keys values body) := by
  have spells (text : String) (head : (slots.map Slot.toJson).head? = some (.string text))
      (telling : name = Catalog.Raise.name ∨ name = Catalog.Request.name) :
      Element.Spells elements name text := by
    have spelledArgs : Arg.isSpelled args := by
      have here := spelled _ listed
      rcases telling with rfl | rfl <;> exact here
    exact ⟨nameSpan, args, inside, span, listed,
      Arg.spelled?_of_listEval spelledArgs evaluated head⟩
  unfold Scene.callTag
  split
  next => exact .error fun _ same => nomatch same
  next run found =>
    have ⟨raised, named⟩ := candid.tags name run found
    dsimp only
    split
    next failure failed =>
      refine ⟨?_, .error _⟩
      rintro code ⟨⟩
      obtain ⟨rfl, head⟩ := raised _ code failed
      exact spells code head (Or.inl rfl)
    next effects ran =>
      refine .ok (disclosed.performAll fun effect within => ?_)
      refine (named _ effects ran disclosed.output effect within).imp ?_
      rintro requested ⟨rfl, head⟩
      exact spells requested head (Or.inr rfl)

theorem Scene.discloses_iterate {var : String} {length : Nat}
    {body : Scene → Except RuntimeError Scene}
    (each : ∀ scene : Scene, scene.Disclosed elements →
      Discloses elements (Scene.Disclosed elements) (body scene))
    (items : List Json) (index : Nat) (disclosed : scene.Disclosed elements) :
    Discloses elements (Scene.Disclosed elements)
      (Scene.iterate var length body index items scene) := by
  induction items generalizing index scene with
  | nil => exact .ok disclosed
  | cons item items ih =>
      exact (each _ (disclosed.bindItem var item index length)).bind fun _ _ after => ih _ after

mutual

/-- A node raises and exports only what some tag among the elements spells out. -/
theorem Node.discloses_exec (candid : around.runtime.Candid)
    (spelled : ∀ element ∈ elements, element.isSpelled) {scene : Scene} (node : Node)
    (among : node.elements ⊆ elements) (disclosed : scene.Disclosed elements) :
    Discloses elements (Scene.Disclosed elements) (node.exec around scene) := by
  match node with
  | .text content _ => exact .ok (disclosed.write content)
  | .output expr _ =>
      exact (expr.discloses_eval candid _).bind fun slot _ _ => .ok (disclosed.emit slot)
  | .branch arms none _ =>
      have among := (List.cons_subset.mp among).2
      apply (Node.discloses_armsExec candid spelled arms among disclosed).bind
      intro taken _ after
      cases taken with
      | none => exact .ok disclosed
      | some taken => exact .ok (after taken rfl)
  | .branch arms (some otherwise) _ =>
      obtain ⟨tested, last⟩ := List.append_subset.mp (List.cons_subset.mp among).2
      apply (Node.discloses_armsExec candid spelled arms tested disclosed).bind
      intro taken _ after
      cases taken with
      | none => exact Node.discloses_listExec candid spelled otherwise last disclosed
      | some taken => exact .ok (after taken rfl)
  | .loop var _ iterable body _ =>
      have among := (List.append_subset.mp (List.cons_subset.mp among).2).2
      apply (iterable.discloses_eval candid _).bind
      intro value _ _
      split
      next => exact .error fun _ same => nomatch same
      next items _ =>
        refine Discloses.bind ?_ fun _ _ (after : Scene.Disclosed elements _) => .ok after.closeLoop
        exact Scene.discloses_iterate
          (fun _ within => Node.discloses_listExec candid spelled body among within) items 0
          disclosed.openLoop
  | .assign var _ value _ =>
      exact (value.discloses_eval candid _).bind fun slot _ _ => .ok (disclosed.assign var slot)
  | .tag name nameSpan args none span =>
      have listed := (List.cons_subset.mp among).1
      apply (Expr.discloses_listEval candid _ _).bind
      intro slots evaluated _
      apply (Expr.discloses_listEval candid _ _).bind
      intro values _ _
      exact disclosed.callTag candid spelled listed evaluated _ _ _
  | .tag name nameSpan args (some body) span =>
      obtain ⟨listed, parts⟩ := List.cons_subset.mp among
      have nameless : ({ scene with output := .empty } : Scene).Disclosed elements :=
        ⟨rfl, disclosed.exported⟩
      have among := (List.append_subset.mp parts).2
      apply (Node.discloses_listExec candid spelled body among nameless).bind
      intro inner _ after
      apply (Expr.discloses_listEval candid _ _).bind
      intro slots evaluated _
      apply (Expr.discloses_listEval candid _ _).bind
      intro values _ _
      have outer : ({ inner with output := scene.output } : Scene).Disclosed elements :=
        ⟨disclosed.output, after.exported⟩
      exact outer.callTag candid spelled listed evaluated _ _ _

theorem Node.discloses_armsExec (candid : around.runtime.Candid)
    (spelled : ∀ element ∈ elements, element.isSpelled) {scene : Scene}
    (arms : List (Expr × List Node)) (among : Node.armElements arms ⊆ elements)
    (disclosed : scene.Disclosed elements) :
    Discloses elements (fun taken => ∀ after, taken = some after → Scene.Disclosed elements after)
      (Node.armsExec around scene arms) := by
  match arms with
  | [] => exact .ok fun _ absent => nomatch absent
  | (condition, body) :: rest =>
      obtain ⟨first, others⟩ := List.append_subset.mp among
      apply (condition.discloses_eval candid _).bind
      intro value _ _
      split
      · have among := (List.append_subset.mp first).2
        apply (Node.discloses_listExec candid spelled body among disclosed).bind
        intro taken _ after
        apply Discloses.ok
        rintro _ ⟨⟩
        exact after
      · exact Node.discloses_armsExec candid spelled rest others disclosed

theorem Node.discloses_listExec (candid : around.runtime.Candid)
    (spelled : ∀ element ∈ elements, element.isSpelled) {scene : Scene} (nodes : List Node)
    (among : Node.listElements nodes ⊆ elements) (disclosed : scene.Disclosed elements) :
    Discloses elements (Scene.Disclosed elements) (Node.listExec around scene nodes) := by
  match nodes with
  | [] => exact .ok disclosed
  | node :: rest =>
      obtain ⟨head, tail⟩ := List.append_subset.mp among
      apply (Node.discloses_exec candid spelled node head disclosed).bind
      intro next _ after
      exact Node.discloses_listExec candid spelled rest tail after

end

theorem Template.discloses_interpret (candid : around.runtime.Candid) {template : Template}
    (spelled : ∀ element ∈ Template.elements template, element.isSpelled) :
    Discloses (Template.elements template)
      (fun builder => ∀ name, builder.name = some name →
        Element.Spells (Template.elements template) Catalog.Request.name name)
      (template.interpret around) := by
  apply (Node.discloses_listExec candid spelled template (List.Subset.refl _) .start).bind
  intro scene _ disclosed
  apply Discloses.ok
  intro name named
  cases exported : scene.exported with
  | none =>
      rw [exported, Option.getD_none, disclosed.output] at named
      cases named
  | some builder =>
      rw [exported, Option.getD_some] at named
      exact disclosed.exported builder name exported named

namespace RunResult

/-- The code that a run raises. -/
def raised? : RunResult → Option String
  | failed (.extension (.raised code)) => some code
  | _ => none

/-- The name of the builder that a run exports. -/
def exportedName? : RunResult → Option String
  | finished (some builder) => builder.name
  | _ => none

variable {outcome : Except RuntimeError Builder}

theorem raised?_ofOutcome {code : String} :
    (ofOutcome outcome).raised? = some code ↔ outcome = .error (.extension (.raised code)) := by
  cases outcome with
  | ok builder => exact iff_of_false (fun same => nomatch same) fun same => nomatch same
  | error failure =>
      simp only [ofOutcome, raised?, Except.error.injEq]
      split
      next found same =>
        cases same
        simp
      next other =>
        refine iff_of_false (fun absent => nomatch absent) fun same => ?_
        exact other code (congrArg failed same)

theorem exportedName?_ofOutcome {name : String} :
    (ofOutcome outcome).exportedName? = some name ↔
      ∃ builder, outcome = .ok builder ∧ builder.name = some name := by
  cases outcome with
  | ok builder => simp [ofOutcome, exportedName?]
  | error failure => simp [ofOutcome, exportedName?]

end RunResult

section Runs

variable {template : Template} {runtime : RuntimeEnvironment} {strict : Bool} {members : Table Json}
  {fuel : Nat}

/-- The template spells out every code that a run of its program raises. -/
theorem Template.spells_of_raised (candid : runtime.Candid)
    (spelled : ∀ element ∈ Template.elements template, element.isSpelled) {code : String}
    (raised : (Machine.runProgram runtime strict fuel (program template)
      (.object members)).raised? = some code) :
    Element.Spells (Template.elements template) Catalog.Raise.name code := by
  rcases runProgram_outOfFuel_or_interpret runtime strict members template fuel with
    unfinished | ended
  · rw [unfinished] at raised
    cases raised
  · rw [ended, RunResult.raised?_ofOutcome] at raised
    exact (discloses_interpret candid spelled).raised code raised

/-- The template spells out the name of every builder that a run of its program exports. -/
theorem Template.spells_of_exported (candid : runtime.Candid)
    (spelled : ∀ element ∈ Template.elements template, element.isSpelled) {name : String}
    (exported : (Machine.runProgram runtime strict fuel (program template)
      (.object members)).exportedName? = some name) :
    Element.Spells (Template.elements template) Catalog.Request.name name := by
  rcases runProgram_outOfFuel_or_interpret runtime strict members template fuel with
    unfinished | ended
  · rw [unfinished] at exported
    cases exported
  · rw [ended, RunResult.exportedName?_ofOutcome] at exported
    obtain ⟨builder, outcome, named⟩ := exported
    exact (discloses_interpret candid spelled).gives builder outcome name named

end Runs

end QueryTemplate
