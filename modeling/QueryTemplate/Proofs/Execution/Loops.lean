import QueryTemplate.Proofs.Code.Contents
import QueryTemplate.Proofs.Code.Programs
import QueryTemplate.Proofs.Execution.Arrivals
import QueryTemplate.Proofs.Execution.Confined

set_option autoImplicit false

/- A loop leaves the variables around it alone. Whatever its body does, the frames that were there
before the loop are as they were when it ends; its body runs once for each item, and at the
beginning of each turn the variables of the loop are bound anew. -/

namespace QueryTemplate

/-- The variable `loop` tells where a loop stands. -/
structure Loop.Tells (turn count : Nat) (status : Json) : Prop where
  index : status.member "index" = .nat (turn + 1)
  index0 : status.member "index0" = .nat turn
  first : status.member "first" = .bool (turn == 0)
  last : status.member "last" = .bool (turn + 1 == count)
  length : status.member "length" = .nat count

theorem Loop.tells_status (turn count : Nat) : Loop.Tells turn count (Loop.status turn count) := by
  constructor <;>
    simp [Loop.status, Json.ofMembers, Json.member, Table.ofList, Table.get?_insert_of_ne]

/-- How a turn begins: the frames around the loop are there, the variable of the loop is the item,
and `loop` tells where the loop stands. -/
structure Machine.Begins (data : Table Json) (var : String) (items : List Json)
    (outer : List Frame) (index : Nat) (machine : Machine) : Prop where
  outer : machine.frames.tail = outer
  item : var ≠ "loop" → machine.lookup data var = items[index]?.map .data
  status : ∃ status, machine.lookup data "loop" = some (.data status) ∧
    Loop.Tells index items.length status

theorem Machine.lookup_cons {data : Table Json} {machine : Machine} {frame : Frame}
    {frames : List Frame} (shape : machine.frames = frame :: frames) {name : String} {slot : Slot}
    (bound : Table.get? frame name = some slot) : machine.lookup data name = some slot := by
  simp only [lookup, shape, lookupFrames, bound]

theorem Machine.begins_bindItem (data : Table Json) (machine : Machine) (pc : Nat) {frame : Frame}
    {outer : List Frame} (shape : machine.frames = frame :: outer) (var : String)
    {items : List Json} {index : Nat} {item : Json} (left : items[index]? = some item) :
    (machine.resume pc (machine.scene.bindItem var item index items.length)).Begins data var items
      outer index := by
  have frames : (machine.resume pc (machine.scene.bindItem var item index items.length)).frames =
      Table.insert (Table.insert frame var (.data item)) "loop"
        (.data (Loop.status index items.length)) :: outer := by
    simp only [resume_frames, Scene.bindItem, Scene.assign, Machine.scene, shape]
  refine ⟨by rw [frames]; rfl, fun other => ?_, _, ?_, Loop.tells_status _ _⟩
  · rw [left]
    refine lookup_cons frames ?_
    rw [Table.get?_insert_of_ne _ _ other, Table.get?_insert_self]
  · exact lookup_cons frames (Table.get?_insert_self _ _ _)

/-- The states at an address among states passed. -/
def Machine.statesAt (address : Nat) (states : List Machine) : List Machine :=
  states.filter fun state => state.pc = address

namespace Machine

variable {address : Nat} {states : List Machine}

theorem statesAt_append (address : Nat) (first second : List Machine) :
    statesAt address (first ++ second) = statesAt address first ++ statesAt address second :=
  List.filter_append ..

theorem statesAt_eq_nil (elsewhere : ∀ state ∈ states, state.pc ≠ address) :
    statesAt address states = [] :=
  List.filter_eq_nil_iff.mpr fun state within => by simpa using elsewhere state within

theorem statesAt_cons {machine : Machine} (here : machine.pc = address)
    (elsewhere : ∀ state ∈ states, state.pc ≠ address) :
    statesAt address (machine :: states) = [machine] := by
  rw [statesAt, List.filter_cons_of_pos (by simpa using here)]
  exact congrArg (machine :: ·) (statesAt_eq_nil elsewhere)

/-- The turns of a loop from an index on, among states passed: for each item that is left, in order,
the body begins and comes to its end once. -/
structure Turns (data : Table Json) (var : String) (items : List Json) (outer : List Frame)
    (first last index : Nat) (states : List Machine) : Prop where
  starts : index + (statesAt first states).length = items.length
  ends : index + (statesAt last states).length = items.length
  begins : ∀ (turn : Nat) (start : Machine), (statesAt first states)[turn]? = some start →
    start.Begins data var items outer (index + turn)

namespace Turns

variable {data : Table Json} {var : String} {items : List Json} {outer : List Frame}
variable {first last index : Nat}

theorem none (spent : items.length ≤ index) (within : index ≤ items.length)
    (elsewhere : ∀ state ∈ states, state.pc ≠ first ∧ state.pc ≠ last) :
    Turns data var items outer first last index states := by
  have starts := statesAt_eq_nil fun state listed => (elsewhere state listed).1
  have ends := statesAt_eq_nil fun state listed => (elsewhere state listed).2
  refine ⟨?_, ?_, fun turn start here => ?_⟩
  · rw [starts, List.length_nil]
    omega
  · rw [ends, List.length_nil]
    omega
  · rw [starts] at here
    cases here

theorem skip {others : List Machine}
    (elsewhere : ∀ state ∈ states, state.pc ≠ first ∧ state.pc ≠ last)
    (rest : Turns data var items outer first last index others) :
    Turns data var items outer first last index (states ++ others) := by
  have starts := statesAt_eq_nil fun state listed => (elsewhere state listed).1
  have ends := statesAt_eq_nil fun state listed => (elsewhere state listed).2
  refine ⟨?_, ?_, ?_⟩
  · rw [statesAt_append, starts]
    exact rest.starts
  · rw [statesAt_append, ends]
    exact rest.ends
  · rw [statesAt_append, starts]
    exact rest.begins

theorem cons {others : List Machine} {start : Machine}
    (begins : start.Begins data var items outer index) (starts : statesAt first states = [start])
    (ends : (statesAt last states).length = 1)
    (rest : Turns data var items outer first last (index + 1) others) :
    Turns data var items outer first last index (states ++ others) := by
  refine ⟨?_, ?_, fun turn state here => ?_⟩
  · rw [statesAt_append, starts, List.length_append, List.length_singleton, ← rest.starts]
    omega
  · rw [statesAt_append, List.length_append, ends, ← rest.ends]
    omega
  · rw [statesAt_append, starts] at here
    cases turn with
    | zero =>
        cases here
        exact begins
    | succ turn =>
        have later := rest.begins turn state here
        rwa [Nat.add_assoc, Nat.add_comm 1] at later

end Turns

/-- What a run from the beginning of a body does until it is back at the head of the loop. -/
structure Turned (head last : Nat) (machine : Machine) (states : List Machine) (next : Machine) :
    Prop where
  scene : ∃ scene, machine.scene.Confined scene ∧ next = machine.resume head scene
  bounds : ∀ state ∈ states, head < state.pc ∧ state.pc ≤ last
  starts : statesAt (head + 1) states = [machine]
  ends : (statesAt last states).length = 1

end Machine

section

variable {setting : Setting} {head last : Nat} {var : String} {items : List Json}

/-- A body and the jump back to the head. -/
theorem Node.turn_arrives (body : List Node)
    (inner : CodeAt setting.program (head + 1) (Node.listCode (head + 1) body))
    (ending : head + 1 + Node.listSize body = last)
    (jumped : setting.program[last]? = some (.jump head))
    (machine : Machine) (entered : machine.pc = head + 1) :
    Arrives setting machine (machine.Turned head last) := by
  rw [← entered] at inner ending
  have rendered := Node.listCode_arrives setting body machine inner
  rw [ending] at rendered
  refine rendered.bind ?_
  rintro states _ ⟨⟨scene, ran, rfl⟩, crosses⟩
  have jumps : ((machine.resume last scene).jumpTo (last + 1)).execute setting (.jump head) =
      .ok (machine.resume head scene) := rfl
  refine (Arrives.of_execute jumped jumps).imp ?_
  rintro _ _ ⟨⟨⟩, rfl⟩
  refine ⟨⟨scene, Node.confined_listExec _ body _ _ ran, rfl⟩, fun state within => ?_, ?_, ?_⟩
  · rcases List.mem_append.mp within with within | within
    · have bounds := crosses.bounds state within
      omega
    · rw [List.mem_singleton.mp within, Machine.resume_pc]
      omega
  · obtain ⟨later, whole, onward⟩ := crosses.onward
    rw [whole]
    refine Machine.statesAt_cons entered fun state within => ?_
    have beyond := onward state within
    omega
  · have before : Machine.statesAt last states = [] :=
      Machine.statesAt_eq_nil fun state within => Nat.ne_of_lt (crosses.bounds state within).2
    have after : Machine.statesAt last [machine.resume last scene] = [machine.resume last scene] :=
      Machine.statesAt_cons rfl (by simp)
    rw [Machine.statesAt_append, before, after]
    rfl

/-- A loop with its remaining items, from its head to its exit. -/
theorem Loop.turns_arrive (fetched : setting.program[head]? = some (.iterNext var (last + 1)))
    (turn : ∀ machine : Machine, machine.pc = head + 1 →
      Arrives setting machine (machine.Turned head last))
    (beyond : head < last) (machine : Machine) {loops : List Loop} {outer : List Frame}
    {index : Nat} (started : machine.pc = head)
    (opened : machine.loops = ⟨items, index⟩ :: loops) {frame : Frame}
    (framed : machine.frames = frame :: outer) (within : index ≤ items.length) :
    Arrives setting machine fun states final =>
      (∃ scene, scene.frames = outer ∧
        final = (machine.withLoops loops).resume (last + 1) scene) ∧
      (∀ state ∈ states, head ≤ state.pc ∧ state.pc ≤ last) ∧
      Machine.Turns setting.data var items outer (head + 1) last index states := by
  induction remaining : items.length - index generalizing machine index frame with
  | zero =>
      have here : setting.program[machine.pc]? = some (.iterNext var (last + 1)) :=
        started ▸ fetched
      have spent : items[index]? = none := List.getElem?_eq_none (by omega)
      have closed := @Machine.iterNext_of_none (machine.jumpTo (machine.pc + 1)) _ _ _ opened
        spent var (last + 1)
      refine (Arrives.of_execute here closed).imp ?_
      rintro _ _ ⟨⟨⟩, rfl⟩
      refine ⟨⟨machine.scene.closeLoop, congrArg List.tail framed, by simp⟩, ?_, ?_⟩
      · exact List.forall_mem_singleton.mpr (by omega)
      · exact .none (by omega) within (List.forall_mem_singleton.mpr (by omega))
  | succ left ih =>
      have here : setting.program[machine.pc]? = some (.iterNext var (last + 1)) :=
        started ▸ fetched
      have more : index < items.length := by omega
      have next := List.getElem?_eq_getElem more
      have bound := @Machine.iterNext_of_some (machine.jumpTo (machine.pc + 1)) _ _ _ _ opened
        next var (last + 1)
      simp only [Machine.withLoops_jumpTo, Machine.resume_jumpTo, Machine.scene_jumpTo,
        Machine.pc_jumpTo] at bound
      refine (Arrives.of_execute here bound).bind ?_
      rintro _ _ ⟨⟨⟩, rfl⟩
      have begins := Machine.begins_bindItem setting.data
        (machine.withLoops (⟨items, index + 1⟩ :: loops)) (machine.pc + 1) framed var next
      refine (turn _ (congrArg (· + 1) started)).bind ?_
      rintro states _ ⟨⟨scene, confined, rfl⟩, bounds, starts, ends⟩
      -- the body has left one frame above those around the loop, so the next turn can follow
      obtain ⟨inner, frames⟩ :=
        (Scene.Confined.bindItem machine.scene var items[index] index items.length).shape framed
      rw [Machine.scene_resume] at confined
      obtain ⟨top, frames⟩ := confined.shape frames
      simp only [Machine.resume_resume]
      refine (ih ((machine.withLoops (⟨items, index + 1⟩ :: loops)).resume head scene) rfl
        (Machine.loops_resume ..) frames more (by omega)).imp ?_
      rintro others final ⟨⟨after, restored, rfl⟩, later, turns⟩
      refine ⟨⟨after, restored, by simp⟩, fun state listed => ?_, ?_⟩
      · simp only [List.mem_append, List.mem_singleton] at listed
        rcases listed with rfl | listed | listed
        · omega
        · have inside := bounds state listed
          omega
        · exact later state listed
      · exact .skip (List.forall_mem_singleton.mpr (by omega)) (.cons begins starts ends turns)

end

/-- What is left of a state as it was: the variables that are seen with the frames that hold them,
the values on the stack, the open loops, and the number of builders that collect output. -/
structure Machine.Restores (data : Table Json) (machine final : Machine) : Prop where
  frames : final.frames = machine.frames
  visible : ∀ name, final.lookup data name = machine.lookup data name
  stack : final.stack = machine.stack
  loops : final.loops = machine.loops
  captures : final.captures.length = machine.captures.length

theorem Machine.restores_resume {machine : Machine} {scene : Scene}
    (same : scene.frames = machine.frames) (data : Table Json) (pc : Nat) :
    machine.Restores data (machine.resume pc scene) where
  frames := same
  visible := fun name => by rw [lookup, lookup, resume_frames, same]
  stack := by
    obtain ⟨_, _, _, _, _, captures, _⟩ := machine
    cases captures <;> rfl
  loops := loops_resume machine pc scene
  captures := by
    obtain ⟨_, _, _, _, _, captures, _⟩ := machine
    cases captures <;> rfl

namespace Node

/-- Where the body of a loop begins, from the beginning of the loop on. -/
def bodyOffset (iterable : Expr) : Nat := (iterable.code 0).length + 2

/-- What a loop comes to when it ends: what was there before it is as it was, and each of the turns
has been taken. Its last instruction jumps back behind the body. -/
structure LoopEnds (setting : Setting) (var : String) (iterable : Expr) (body : List Node)
    (size : Nat) (machine : Machine) (states : List Machine) (final : Machine) : Prop where
  exit : final.pc = machine.pc + size
  restores : machine.Restores setting.data final
  inside : ∀ state ∈ states, machine.pc ≤ state.pc ∧ state.pc < machine.pc + size
  body : CodeAt setting.program (machine.pc + bodyOffset iterable)
    (listCode (machine.pc + bodyOffset iterable) body)
  turns : ∃ value items, iterable.eval setting.surroundings machine.frames = .ok value ∧
    value.toJson.loopItems? = some items ∧
    Machine.Turns setting.data var items machine.frames (machine.pc + bodyOffset iterable)
      (machine.pc + size - 1) 0 states

/-- The value that a loop runs through is evaluated, and the loop is opened. -/
theorem loop_opens (setting : Setting) {iterable : Expr} (machine : Machine)
    (placed : CodeAt setting.program machine.pc (iterable.code machine.pc))
    (started : setting.program[machine.pc + (iterable.code machine.pc).length]? = some .iterStart) :
    Arrives setting machine fun states next =>
      (∃ value items, iterable.eval setting.surroundings machine.frames = .ok value ∧
        value.toJson.loopItems? = some items ∧
        next = (machine.withLoops (⟨items, 0⟩ :: machine.loops)).resume
          (machine.pc + (iterable.code machine.pc).length + 1) machine.scene.openLoop) ∧
      ∀ state ∈ states, machine.pc ≤ state.pc ∧
        state.pc ≤ machine.pc + (iterable.code machine.pc).length := by
  refine (iterable.code_arrives setting machine placed).bind ?_
  rintro states _ ⟨⟨value, evaluated, rfl⟩, crosses⟩
  have opening := Machine.iterStart_reach machine
    (machine.pc + (iterable.code machine.pc).length + 1) value
  cases listed : value.toJson.loopItems? with
  | none =>
      simp only [listed] at opening
      refine (Arrives.of_reach started opening).imp ?_
      rintro _ _ ⟨⟨⟩, _⟩
  | some items =>
      simp only [listed] at opening
      refine (Arrives.of_reach started opening).imp ?_
      rintro _ _ ⟨⟨⟩, rfl⟩
      refine ⟨⟨value, items, evaluated, listed, rfl⟩, ?_⟩
      simp only [List.mem_append, List.mem_singleton]
      rintro state (within | rfl)
      · have bounds := crosses.bounds state within
        omega
      · rw [Machine.reach_pc]
        omega

theorem loop_arrives (setting : Setting) {var : String} {varSpan : Span} {iterable : Expr}
    {body : List Node} {span : Span} (machine : Machine)
    (placed : CodeAt setting.program machine.pc
      ((Node.loop var varSpan iterable body span).code machine.pc)) :
    Arrives setting machine (LoopEnds setting var iterable body
      (Node.loop var varSpan iterable body span).size machine) := by
  obtain ⟨front, jumped⟩ := CodeAt.append.mp placed
  obtain ⟨first, inside⟩ := CodeAt.append.mp front
  obtain ⟨started, looped⟩ := CodeAt.cons.mp inside
  obtain ⟨bound, inner⟩ := CodeAt.cons.mp looped
  simp only [List.length_append, List.length_cons, length_listCode, ← Nat.add_assoc,
    Nat.add_right_comm _ (listSize body) 1] at bound jumped
  rw [Nat.add_right_comm _ 1 (listSize body)] at bound
  have length := iterable.length_code machine.pc
  have size : machine.pc + (Node.loop var varSpan iterable body span).size =
      machine.pc + (iterable.code machine.pc).length + 1 + 1 + listSize body + 1 := by
    rw [length, Node.size]
    omega
  have offset : machine.pc + bodyOffset iterable =
      machine.pc + (iterable.code machine.pc).length + 1 + 1 := by
    rw [length]
    rfl
  refine (loop_opens setting machine first started).bind ?_
  rintro states _ ⟨⟨value, items, evaluated, listed, rfl⟩, early⟩
  have turn := turn_arrives body inner rfl (CodeAt.singleton.mp jumped)
  refine (Loop.turns_arrive bound turn (by omega) _ rfl (Machine.loops_resume ..) rfl
    (Nat.zero_le _)).imp ?_
  rintro others final ⟨⟨scene, restored, rfl⟩, later, turns⟩
  refine ⟨?_, ?_, fun state within => ?_, offset ▸ inner, value, items, evaluated, listed, ?_⟩
  · rw [size, Machine.resume_pc]
  · simpa [Machine.withLoops_self] using Machine.restores_resume restored setting.data _
  · rcases List.mem_append.mp within with within | within
    · have bounds := early state within
      omega
    · have bounds := later state within
      omega
  · rw [offset, size, Nat.add_sub_cancel]
    refine .skip (fun state within => ?_) turns
    have bounds := early state within
    omega

end Node

/-- Each loop of a template has its code in the program. From any state at that code the run fails,
or the loop ends: the variables that were there before it are as they were, and its body has run
once for each item, each time with the variables of the loop bound anew. -/
theorem Template.loop_restores_scope {template : Template} {env : RuntimeEnvironment}
    {setting : Setting} (generated : generate template env = .ok setting.program) {var : String}
    {varSpan : Span} {iterable : Expr} {body : List Node} {span : Span}
    (within : .node (.loop var varSpan iterable body span) ∈ template.elements) :
    (Node.loop var varSpan iterable body span).Placed setting.program ∧
      ∀ machine : Machine,
        CodeAt setting.program machine.pc
            ((Node.loop var varSpan iterable body span).code machine.pc) →
          ∃ steps,
            (∃ error, machine.advance setting steps = .error error) ∨
              ∃ final, machine.advance setting steps = .ok final ∧
                Node.LoopEnds setting var iterable body
                  (Node.loop var varSpan iterable body span).size machine
                  (machine.passed setting steps) final := by
  refine ⟨?_, fun machine placed => Node.loop_arrives setting machine placed⟩
  rw [generate_eq_ok generated]
  exact placed_of_mem within

/-- A loop inside another one of the same variable. The inner body assigns both variables of the
outer loop, which are seen again after it in the second turn of the outer loop. -/
theorem Template.loop_restores_scope_nested :
    let body : List Node :=
      [.assign "loop" ⟨0, 4⟩ (.literal .null ⟨0, 4⟩) ⟨0, 4⟩,
        .assign "x" ⟨0, 1⟩ (.literal (.bool true) ⟨0, 4⟩) ⟨0, 1⟩]
    let keys : Expr := .var "ys" ⟨0, 2⟩
    let inner : Node := .loop "x" ⟨0, 1⟩ keys body ⟨0, 3⟩
    let template : Template :=
      [.loop "x" ⟨0, 1⟩ (.var "xs" ⟨0, 2⟩) [inner, .output (.var "x" ⟨0, 1⟩) ⟨0, 1⟩] ⟨0, 3⟩]
    let data : Table Json :=
      [("xs", .array [.null, .bool false]), ("ys", .object [("k", .null)])]
    let setting : Setting := ⟨program template, {}, true, data⟩
    ∃ machine steps final,
      Machine.start.advance setting 16 = .ok machine ∧
        machine.advance setting steps = .ok final ∧
        Node.LoopEnds setting "x" keys body inner.size machine (machine.passed setting steps)
          final ∧
        final.lookup data "x" = some (.data (.bool false)) ∧
        final.lookup data "loop" = some (.data (Loop.status 1 2)) := by
  intro body keys inner template data setting
  let machine : Machine := {
    pc := 3
    loops := [⟨[.null, .bool false], 2⟩]
    frames := [[("loop", .data (Loop.status 1 2)), ("x", .data (.bool false))], []]
    main := { statement := "$1".toList, parameters := [.null], placeholders := [0] } }
  have listed : setting =
      ⟨[.load "xs", .iterStart, .iterNext "x" 14, .load "ys", .iterStart, .iterNext "x" 11,
        .const .null, .assign "loop", .const (.bool true), .assign "x", .jump 5, .load "x", .emit,
        .jump 2, .deliver], {}, true, data⟩ := rfl
  have reached : Machine.start.advance setting 16 = .ok machine := by
    rw [listed]
    rfl
  have finished : machine.run setting 40 =
      .finished (some {
        statement := "$1$2".toList
        parameters := [.null, .bool false]
        placeholders := [0, 2] }) := by
    rw [listed]
    dsimp only [machine]
    rfl
  have within : .node inner ∈ elements template := by
    simp [elements, template, Node.listElements, Node.elements, inner]
  have placed : CodeAt setting.program machine.pc (inner.code machine.pc) :=
    ⟨(program template).drop 11, rfl⟩
  have loop := @loop_restores_scope template {} setting rfl _ _ _ _ _ within
  obtain ⟨steps, ⟨error, failed⟩ | ⟨final, ended, ends⟩⟩ := loop.2 machine placed
  · have failing := Machine.run_advance setting steps 40 machine
    rw [failed, Nat.add_comm, Machine.run_add (by rw [finished]; simp), finished] at failing
    cases failing
  · refine ⟨machine, steps, final, reached, ended, ends, ?_, ?_⟩
    · rw [ends.restores.visible]
      rfl
    · rw [ends.restores.visible]
      rfl

end QueryTemplate
