import QueryTemplate.Proofs.Execution.Handed

set_option autoImplicit false

/- What one step does to the program counter, the loops and the frames. Whatever the instruction,
the step assigns variables in the innermost frame, or opens a loop with a frame of its own, or binds
the next item of the innermost loop, or closes that loop together with its frame. -/

namespace QueryTemplate

/-- The variable that an effect assigns. -/
def TagEffect.assignment? : TagEffect → Option (String × Slot)
  | setVariable name value => some (name, .data value)
  | setBuilder name builder => some (name, .builder builder)
  | write _ => none
  | deliver _ => none

namespace Loop

/-- What the next item is bound to, and the status of the loop. -/
def bindings (loop : Loop) (var : String) : List (String × Slot) :=
  match loop.items[loop.position]? with
  | none => []
  | some item =>
    [(var, .data item), ("loop", .data (Loop.status loop.position loop.items.length))]

end Loop

namespace Frame

/-- Frames after assignments in the innermost of them. -/
def assignAll (entries : List (String × Slot)) : List Frame → List Frame
  | [] => []
  | frame :: frames => Table.merge frame entries :: frames

theorem assignAll_nil (frames : List Frame) : assignAll [] frames = frames := by
  cases frames <;> rfl

theorem assignAll_append (first second : List (String × Slot)) (frames : List Frame) :
    assignAll (first ++ second) frames = assignAll second (assignAll first frames) := by
  cases frames with
  | nil => rfl
  | cons frame frames => simp only [assignAll, Table.merge, List.foldl_append]

theorem length_assignAll (entries : List (String × Slot)) (frames : List Frame) :
    (assignAll entries frames).length = frames.length := by
  cases frames <;> rfl

end Frame

namespace Machine

/-- What the runner of a tag does if it is called, and nothing if it fails. -/
def effects (setting : Setting) (machine : Machine) (name : String) (argc : Nat)
    (kwargs : List String) (hasBody : Bool) : List TagEffect :=
  match machine.hand setting argc kwargs hasBody with
  | .error _ => []
  | .ok (context, _) =>
    match Table.get? setting.runtime.tags name with
    | none => []
    | some run => (run context).toOption.getD []

/-- What an instruction assigns, in order. -/
def assigned (setting : Setting) (machine : Machine) : Instr → List (String × Slot)
  | .assign name => (machine.stack.head?.map fun slot => (name, slot)).toList
  | .iterNext var _ =>
    match machine.loops with
    | [] => []
    | loop :: _ => loop.bindings var
  | .callTag name argc kwargs hasBody =>
    (machine.effects setting name argc kwargs hasBody).filterMap TagEffect.assignment?
  | _ => []

/-- What the next step assigns, in order. -/
def assignments (setting : Setting) (machine : Machine) : List (String × Slot) :=
  match setting.program[machine.pc]? with
  | none => []
  | some instr => (machine.jumpTo (machine.pc + 1)).assigned setting instr

/-- How loops and frames change when variables are assigned. -/
inductive Moves (assigned : List (String × Slot)) (machine next : Machine) : Prop
  | keeps (loops : next.loops = machine.loops)
      (frames : next.frames = Frame.assignAll assigned machine.frames)
  | opens (items : List Json) (silent : assigned = [])
      (loops : next.loops = ⟨items, 0⟩ :: machine.loops)
      (frames : next.frames = [] :: machine.frames)
  | binds (loop : Loop) (loops : List Loop) (innermost : machine.loops = loop :: loops)
      (more : loop.position < loop.items.length)
      (bound : next.loops = { loop with position := loop.position + 1 } :: loops)
      (frames : next.frames = Frame.assignAll assigned machine.frames)
  | closes (loop : Loop) (silent : assigned = []) (innermost : machine.loops = loop :: next.loops)
      (frames : next.frames = machine.frames.tail)

/-- A step leads to the next instruction or to the target of its own. -/
structure Steps (instr : Instr) (assigned : List (String × Slot)) (machine next : Machine) :
    Prop where
  address : next.pc = machine.pc ∨ instr.target? = some next.pc
  moves : Moves assigned machine next

/-- The program counter, the loops and the frames. -/
def control (machine : Machine) : Nat × List Loop × List Frame :=
  (machine.pc, machine.loops, machine.frames)

variable {setting : Setting} {machine next : Machine} {instr : Instr}

theorem control_assign (machine : Machine) (name : String) (slot : Slot) :
    (machine.assign name slot).control =
      (machine.pc, machine.loops, Frame.assignAll [(name, slot)] machine.frames) := by
  unfold assign control
  cases shape : machine.frames with
  | nil => simp only [shape, Frame.assignAll]
  | cons frame frames => rfl

theorem control_assign_assign (machine : Machine) (name other : String) (slot value : Slot) :
    ((machine.assign name slot).assign other value).control =
      (machine.pc, machine.loops,
        Frame.assignAll [(name, slot), (other, value)] machine.frames) := by
  have first := control_assign machine name slot
  simp only [control, Prod.mk.injEq] at first
  obtain ⟨pc, loops, frames⟩ := first
  rw [control_assign, pc, loops, frames, ← Frame.assignAll_append]
  rfl

theorem control_setOutput (machine : Machine) (builder : Builder) :
    (machine.setOutput builder).control = machine.control := by
  unfold setOutput
  cases machine.captures <;> rfl

theorem control_perform (machine : Machine) (effect : TagEffect) :
    (machine.perform effect).control =
      (machine.pc, machine.loops, Frame.assignAll effect.assignment?.toList machine.frames) := by
  have kept : machine.control = (machine.pc, machine.loops, Frame.assignAll [] machine.frames) := by
    rw [Frame.assignAll_nil, control]
  cases effect with
  | setVariable name value => exact control_assign machine name _
  | setBuilder name builder => exact control_assign machine name _
  | write output => exact (control_setOutput machine output).trans kept
  | deliver builder => exact kept

theorem control_performAll (machine : Machine) (effects : List TagEffect) :
    (effects.foldl perform machine).control =
      (machine.pc, machine.loops,
        Frame.assignAll (effects.filterMap TagEffect.assignment?) machine.frames) := by
  induction effects generalizing machine with
  | nil => rw [List.foldl_nil, List.filterMap_nil, Frame.assignAll_nil]; rfl
  | cons effect effects ih =>
      have first := control_perform machine effect
      simp only [control, Prod.mk.injEq] at first
      obtain ⟨pc, loops, frames⟩ := first
      have front : (effect :: effects).filterMap TagEffect.assignment? =
          effect.assignment?.toList ++ effects.filterMap TagEffect.assignment? := by
        cases assigned : effect.assignment? <;> simp [assigned]
      rw [List.foldl_cons, ih, front, Frame.assignAll_append, pc, loops, frames]

theorem Steps.of_control (same : next.control = machine.control) : Steps instr [] machine next := by
  simp only [control, Prod.mk.injEq] at same
  obtain ⟨pc, loops, frames⟩ := same
  refine ⟨Or.inl pc, .keeps loops ?_⟩
  rw [Frame.assignAll_nil, frames]

theorem Steps.jumpTo {target : Nat} (own : instr.target? = some target)
    (same : next.control = machine.control) : Steps instr [] machine (next.jumpTo target) := by
  simp only [control, Prod.mk.injEq] at same
  obtain ⟨-, loops, frames⟩ := same
  refine ⟨Or.inr own, .keeps loops ?_⟩
  rw [Frame.assignAll_nil]
  exact frames

theorem control_of_hand {context : TagContext} {rest : Machine} {argc : Nat}
    {kwargs : List String} {hasBody : Bool}
    (hands : machine.hand setting argc kwargs hasBody = .ok (context, rest)) :
    rest.control = machine.control := by
  obtain ⟨body, takes, -⟩ := takesBody_of_hand hands
  cases takes <;> rfl

theorem steps_assign {slot : Slot} (name : String) (top : machine.stack.head? = some slot) :
    Steps (.assign name) (machine.assigned setting (.assign name)) machine
      ((machine.drop 1).assign name slot) := by
  have bound := control_assign (machine.drop 1) name slot
  simp only [control, Prod.mk.injEq] at bound
  obtain ⟨pc, loops, frames⟩ := bound
  refine ⟨Or.inl pc, .keeps loops ?_⟩
  rw [frames, assigned, top]
  rfl

theorem steps_bindItem {loop : Loop} {loops : List Loop} {item : Json} (var : String) (exit : Nat)
    (innermost : machine.loops = loop :: loops) (left : loop.items[loop.position]? = some item) :
    Steps (.iterNext var exit) (machine.assigned setting (.iterNext var exit)) machine
      ((({ machine with loops := { loop with position := loop.position + 1 } :: loops } :
        Machine).assign var (.data item)).assign "loop"
          (.data (Loop.status loop.position loop.items.length))) := by
  obtain ⟨more, -⟩ := List.getElem?_eq_some_iff.mp left
  have bound := control_assign_assign
    { machine with loops := { loop with position := loop.position + 1 } :: loops }
    var "loop" (.data item) (.data (Loop.status loop.position loop.items.length))
  simp only [control, Prod.mk.injEq] at bound
  obtain ⟨pc, advanced, frames⟩ := bound
  refine ⟨Or.inl pc, .binds loop loops innermost more advanced ?_⟩
  simp only [assigned, innermost, Loop.bindings, left]
  exact frames

theorem steps_callTag {context : TagContext} {rest : Machine} {run : TagRunner}
    {effects : List TagEffect} {name : String} {argc : Nat} {kwargs : List String} {hasBody : Bool}
    (hands : machine.hand setting argc kwargs hasBody = .ok (context, rest))
    (found : Table.get? setting.runtime.tags name = some run) (ran : run context = .ok effects) :
    Steps (.callTag name argc kwargs hasBody)
      (machine.assigned setting (.callTag name argc kwargs hasBody)) machine
      (effects.foldl perform rest) := by
  -- the effects are performed on what is left, which has the frames that the call found
  have same := control_of_hand hands
  have performed := control_performAll rest effects
  simp only [control, Prod.mk.injEq] at same performed
  obtain ⟨pc, loops, frames⟩ := performed
  refine ⟨Or.inl (pc.trans same.1), .keeps (loops.trans same.2.1) ?_⟩
  simp only [assigned, Machine.effects, hands, found, ran, Except.toOption, Option.getD_some]
  rw [frames, same.2.2]

/-- What a step can do. -/
theorem steps_succeeds (done : machine.Succeeds setting instr next) :
    Steps instr (machine.assigned setting instr) machine next := by
  cases done with
  | text | splice | bind => exact .of_control (control_setOutput _ _)
  | assign name top => exact steps_assign name top
  | jump | fails | keepFalse | keepTrue => exact .jumpTo rfl rfl
  | openLoop => exact ⟨Or.inl rfl, .opens _ rfl rfl rfl⟩
  | closeLoop var exit innermost spent =>
      refine ⟨Or.inr rfl, .closes _ ?_ innermost rfl⟩
      simp only [assigned, innermost, Loop.bindings, spent]
  | bindItem var exit innermost left => exact steps_bindItem var exit innermost left
  | callTag hands found ran => exact steps_callTag hands found ran
  | deliver =>
      refine .of_control ?_
      unfold deliver
      split <;> rfl
  | _ => exact .of_control rfl

theorem steps_of_step (stepped : machine.step? setting = some (.ok next)) :
    ∃ instr, setting.program[machine.pc]? = some instr ∧
      Steps instr (machine.assignments setting) (machine.jumpTo (machine.pc + 1)) next := by
  obtain ⟨instr, fetched, done⟩ := succeeds_of_step stepped
  refine ⟨instr, fetched, ?_⟩
  simp only [assignments, fetched]
  exact steps_succeeds done

end Machine

end QueryTemplate
