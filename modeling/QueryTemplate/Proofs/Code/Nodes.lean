import QueryTemplate.Proofs.Code.Expressions

set_option autoImplicit false

/- The code of a node does what the node does: it changes the variables, the builder at hand and the
exported builder as the tree says, and leaves the stack, the open loops and the builders around it
as they were. Eager code may fail instead. -/

namespace QueryTemplate

namespace Machine

/-- What nodes can see and change of a machine. -/
def scene (machine : Machine) : Scene := ⟨machine.frames, machine.output, machine.exported⟩

/-- Goes on at an address in another scene. -/
def resume (machine : Machine) (pc : Nat) (scene : Scene) : Machine :=
  { machine.setOutput scene.output with pc, frames := scene.frames, exported := scene.exported }

@[simp] theorem resume_pc (machine : Machine) (pc : Nat) (scene : Scene) :
    (machine.resume pc scene).pc = pc := rfl

@[simp] theorem resume_frames (machine : Machine) (pc : Nat) (scene : Scene) :
    (machine.resume pc scene).frames = scene.frames := rfl

@[simp] theorem output_setOutput (machine : Machine) (builder : Builder) :
    (machine.setOutput builder).output = builder := by
  simp only [setOutput, output]
  cases machine.captures <;> rfl

@[simp] theorem scene_resume (machine : Machine) (pc : Nat) (scene : Scene) :
    (machine.resume pc scene).scene = scene := by
  cases scene
  simp only [resume, Machine.scene, Scene.mk.injEq, true_and, and_true]
  exact output_setOutput machine _

@[simp] theorem resume_resume (machine : Machine) (pc next : Nat) (scene : Scene) :
    (machine.resume pc scene).resume next = machine.resume next := by
  funext other
  obtain ⟨_, _, _, _, _, captures, _⟩ := machine
  cases captures <;> rfl

theorem resume_scene (machine : Machine) (pc : Nat) :
    machine.resume pc machine.scene = machine.jumpTo pc := by
  obtain ⟨_, _, _, _, _, captures, _⟩ := machine
  cases captures <;> rfl

@[simp] theorem scene_reach (machine : Machine) (pc : Nat) (slots : List Slot) :
    (machine.reach pc slots).scene = machine.scene := rfl

@[simp] theorem scene_jumpTo (machine : Machine) (pc : Nat) :
    (machine.jumpTo pc).scene = machine.scene := rfl

@[simp] theorem pc_jumpTo (machine : Machine) (pc : Nat) : (machine.jumpTo pc).pc = pc := rfl

@[simp] theorem jumpTo_jumpTo (machine : Machine) (pc next : Nat) :
    (machine.jumpTo pc).jumpTo next = machine.jumpTo next := rfl

@[simp] theorem reach_nil (machine : Machine) (pc : Nat) :
    machine.reach pc [] = machine.jumpTo pc := rfl

@[simp] theorem resume_jumpTo (machine : Machine) (pc next : Nat) :
    (machine.jumpTo pc).resume next = machine.resume next := by
  funext scene
  obtain ⟨_, _, _, _, _, captures, _⟩ := machine
  cases captures <;> rfl

@[simp] theorem loops_resume (machine : Machine) (pc : Nat) (scene : Scene) :
    (machine.resume pc scene).loops = machine.loops := by
  obtain ⟨_, _, _, _, _, captures, _⟩ := machine
  cases captures <;> rfl

def withLoops (machine : Machine) (loops : List Loop) : Machine := { machine with loops }

@[simp] theorem pc_withLoops (machine : Machine) (loops : List Loop) :
    (machine.withLoops loops).pc = machine.pc := rfl

@[simp] theorem scene_withLoops (machine : Machine) (loops : List Loop) :
    (machine.withLoops loops).scene = machine.scene := rfl

@[simp] theorem withLoops_withLoops (machine : Machine) (loops others : List Loop) :
    (machine.withLoops loops).withLoops others = machine.withLoops others := rfl

theorem withLoops_self {machine : Machine} {loops : List Loop} (same : machine.loops = loops) :
    machine.withLoops loops = machine := by
  rw [← same]
  rfl

@[simp] theorem withLoops_jumpTo (machine : Machine) (loops : List Loop) (pc : Nat) :
    (machine.jumpTo pc).withLoops loops = (machine.withLoops loops).jumpTo pc := rfl

@[simp] theorem withLoops_reach (machine : Machine) (loops : List Loop) (pc : Nat)
    (slots : List Slot) :
    (machine.reach pc slots).withLoops loops = (machine.withLoops loops).reach pc slots := rfl

@[simp] theorem withLoops_resume (machine : Machine) (loops : List Loop) (pc : Nat)
    (scene : Scene) :
    (machine.resume pc scene).withLoops loops = (machine.withLoops loops).resume pc scene := by
  obtain ⟨_, _, _, _, _, captures, _⟩ := machine
  cases captures <;> rfl

theorem setOutput_eq_resume (machine : Machine) (builder : Builder) :
    machine.setOutput builder = machine.resume machine.pc { machine.scene with output := builder } := by
  obtain ⟨_, _, _, _, _, captures, _⟩ := machine
  cases captures <;> rfl

theorem assign_eq_resume (machine : Machine) (name : String) (slot : Slot) :
    machine.assign name slot = machine.resume machine.pc (machine.scene.assign name slot) := by
  obtain ⟨_, _, _, frames, _, captures, _⟩ := machine
  cases frames <;> cases captures <;> rfl

theorem perform_eq_resume (machine : Machine) (effect : TagEffect) :
    machine.perform effect = machine.resume machine.pc (machine.scene.perform effect) := by
  cases effect with
  | setVariable name value => exact assign_eq_resume machine name (.data value)
  | setBuilder name builder => exact assign_eq_resume machine name (.builder builder)
  | write output => exact setOutput_eq_resume machine output
  | deliver builder =>
      obtain ⟨_, _, _, _, _, captures, _⟩ := machine
      cases captures <;> rfl

theorem foldl_perform (effects : List TagEffect) (machine : Machine) :
    effects.foldl perform machine =
      machine.resume machine.pc (effects.foldl Scene.perform machine.scene) := by
  induction effects generalizing machine with
  | nil => exact (resume_scene machine machine.pc).symm
  | cons effect rest ih =>
      simp only [List.foldl_cons]
      rw [ih, perform_eq_resume, scene_resume, resume_resume, resume_pc]

theorem context_eq (setting : Setting) (machine : Machine) (args : List Json) (kwargs : Table Json)
    (body : Option Builder) :
    machine.context setting.data args kwargs body =
      machine.scene.context setting.surroundings args kwargs body := by
  simp only [context, Scene.context, lookup_eq]
  rfl

/-- A call whose operands have been pushed and whose body, if any, has been taken off. -/
theorem callTag_reach (setting : Setting) (machine : Machine) (pc : Nat) (name : String)
    (positional values : List Slot) (keys : List String) (hasBody : Bool) (body : Option Builder)
    (after : Machine) (matched : keys.length = values.length)
    (taken : (machine.jumpTo pc).popBody hasBody = .ok (body, after)) :
    (machine.reach pc (positional ++ values)).callTag setting name positional.length keys hasBody =
      (after.scene.callTag setting.surroundings name positional keys values body).map
        (after.resume after.pc) := by
  simp only [callTag, matched]
  rw [← reach_reach machine pc pc positional values, popValues_reach, reach_reach,
    List.append_nil]
  simp only [bind, Except.bind, popValues_reach, reach_nil, taken, context_eq, Scene.callTag,
    Setting.surroundings]
  cases Table.get? setting.runtime.tags name with
  | none => rfl
  | some run =>
      simp only
      generalize after.scene.context _ _ _ _ = context
      cases run context with
      | error error => rfl
      | ok effects => exact congrArg Except.ok (foldl_perform effects after)

theorem write_jumpTo (machine : Machine) (pc : Nat) (content : String) :
    (machine.jumpTo pc).setOutput ((machine.jumpTo pc).output.push content.toList) =
      machine.resume pc (machine.scene.write content) := by
  rw [setOutput_eq_resume, resume_jumpTo]
  rfl

theorem assign_jumpTo (machine : Machine) (pc : Nat) (name : String) (slot : Slot) :
    (machine.jumpTo pc).assign name slot = machine.resume pc (machine.scene.assign name slot) := by
  rw [assign_eq_resume, resume_jumpTo]
  rfl

theorem iterStart_reach (machine : Machine) (pc : Nat) (slot : Slot) :
    (machine.reach pc [slot]).iterStart =
      match slot.toJson.loopItems? with
      | none => .error (.notIterable slot.toJson.typeName)
      | some items =>
        .ok ((machine.withLoops (⟨items, 0⟩ :: machine.loops)).resume pc
          machine.scene.openLoop) := by
  obtain ⟨_, _, _, _, _, captures, _⟩ := machine
  change (match slot.toJson.loopItems? with
    | none => _
    | some items => _ : Except RuntimeError Machine) = _
  cases slot.toJson.loopItems? with
  | none => rfl
  | some items => cases captures <;> rfl

theorem emit_reach (machine : Machine) (pc : Nat) (slot : Slot) :
    (machine.reach pc [slot]).emit = .ok (machine.resume pc (machine.scene.emit slot)) := by
  obtain ⟨_, _, _, _, _, captures, _⟩ := machine
  cases slot <;> cases captures <;> rfl

theorem iterNext_of_none {machine : Machine} {items : List Json} {index : Nat} {loops : List Loop}
    (opened : machine.loops = ⟨items, index⟩ :: loops) (spent : items[index]? = none)
    (var : String) (exit : Nat) :
    machine.iterNext var exit =
      .ok ((machine.withLoops loops).resume exit machine.scene.closeLoop) := by
  obtain ⟨_, _, _, _, _, captures, _⟩ := machine
  cases opened
  simp only [iterNext, spent]
  cases captures <;> rfl

theorem iterNext_of_some {machine : Machine} {items : List Json} {index : Nat} {loops : List Loop}
    {item : Json} (opened : machine.loops = ⟨items, index⟩ :: loops)
    (left : items[index]? = some item) (var : String) (exit : Nat) :
    machine.iterNext var exit =
      .ok ((machine.withLoops (⟨items, index + 1⟩ :: loops)).resume machine.pc
        (machine.scene.bindItem var item index items.length)) := by
  obtain ⟨_, _, _, frames, _, captures, _⟩ := machine
  cases opened
  simp only [iterNext, left]
  cases frames <;> cases captures <;> rfl

theorem execute_jumpIfFalse (setting : Setting) (machine : Machine) (pc target : Nat)
    (slot : Slot) :
    (machine.reach pc [slot]).execute setting (.jumpIfFalse target) =
      .ok (machine.jumpTo (if slot.isTruthy then pc else target)) := by
  change Except.ok (if slot.isTruthy = true then _ else _ : Machine) = _
  cases slot.isTruthy <;> rfl

def openCapture (machine : Machine) : Machine :=
  { machine with captures := .empty :: machine.captures }

@[simp] theorem scene_openCapture (machine : Machine) :
    machine.openCapture.scene = { machine.scene with output := .empty } := rfl

/-- Taking the body off restores the builder that was written before. -/
theorem popBody_openCapture (machine : Machine) (pc next : Nat) (inner : Scene) :
    ((machine.openCapture.resume pc inner).jumpTo next).popBody true =
      .ok (some inner.output, machine.resume next { inner with output := machine.output }) := by
  obtain ⟨_, _, _, _, _, captures, _⟩ := machine
  cases captures <;> rfl

end Machine

theorem Scene.write_empty (scene : Scene) : scene.write "" = scene := by
  have same : scene.output.push "".toList = scene.output := scene.output.push_nil
  rw [Scene.write, same]

section

variable (setting : Setting) (logic : Logic)

/-- A loop with its remaining items, from the instruction on that binds the next one. -/
theorem Scene.iterate_leads (var : String) (exit : Nat) (items : List Json)
    (body : Scene → Except RuntimeError Scene) (head : Nat)
    (fetched : setting.program[head]? = some (.iterNext var exit))
    (round : ∀ machine : Machine, machine.pc = head + 1 →
      LeadsBy logic setting machine ((body machine.scene).map (machine.resume head)))
    (machine : Machine) (loops : List Loop) (index : Nat)
    (started : machine.pc = head) (opened : machine.loops = ⟨items, index⟩ :: loops) :
    LeadsBy logic setting machine
      ((Scene.iterate var items.length body index (items.drop index) machine.scene).map
        fun scene => (machine.withLoops loops).resume exit scene.closeLoop) := by
  induction remaining : items.drop index generalizing machine index with
  | nil =>
      have here : setting.program[machine.pc]? = some (.iterNext var exit) := started ▸ fetched
      have spent : items[index]? = none := by
        rw [List.getElem?_eq_none_iff]
        exact List.drop_eq_nil_iff.mp remaining
      have closed := @Machine.iterNext_of_none (machine.jumpTo (machine.pc + 1)) _ _ _ opened
        spent var exit
      simp only [Machine.withLoops_jumpTo, Machine.resume_jumpTo, Machine.scene_jumpTo] at closed
      exact LeadsBy.of_execute here closed
  | cons item rest ih =>
      have here : setting.program[machine.pc]? = some (.iterNext var exit) := started ▸ fetched
      have left : items[index]? = some item := by
        rw [← List.head?_drop, remaining]
        rfl
      have others : items.drop (index + 1) = rest := by
        rw [← List.tail_drop, remaining]
        rfl
      have bound := @Machine.iterNext_of_some (machine.jumpTo (machine.pc + 1)) _ _ _ _ opened
        left var exit
      simp only [Machine.withLoops_jumpTo, Machine.resume_jumpTo, Machine.scene_jumpTo] at bound
      apply LeadsBy.then_execute here bound
      simp only [Scene.iterate]
      have turn := round ((machine.withLoops (⟨items, index + 1⟩ :: loops)).resume (machine.pc + 1)
        (machine.scene.bindItem var item index items.length)) (by rw [started]; rfl)
      simp only [Machine.scene_resume, Machine.resume_resume] at turn
      apply LeadsBy.bind turn
      intro scene _
      have again := ih ((machine.withLoops (⟨items, index + 1⟩ :: loops)).resume head scene)
        (index + 1) rfl (Machine.loops_resume ..) others
      simpa using again

/-- Wherever the code of the nodes stands, it does what they do. -/
def Node.ListSimulated (nodes : List Node) : Prop :=
  ∀ machine : Machine,
    CodeAt setting.program machine.pc (Node.listCodeBy logic machine.pc nodes) →
    LeadsBy logic setting machine ((Node.listExec setting.surroundings machine.scene nodes).map
      (machine.resume (machine.pc + Node.listSizeBy logic nodes)))

/-- One turn of a loop: the body, and the jump back to the instruction that binds the next item. -/
theorem Node.roundBy_leads {body : List Node} (simulated : Node.ListSimulated setting logic body)
    {head : Nat} (inner : CodeAt setting.program (head + 1) (Node.listCodeBy logic (head + 1) body))
    (jumped : setting.program[head + 1 + Node.listSizeBy logic body]? = some (.jump head))
    (machine : Machine) (entered : machine.pc = head + 1) :
    LeadsBy logic setting machine
      ((Node.listExec setting.surroundings machine.scene body).map (machine.resume head)) := by
  rw [← entered] at inner
  have once := simulated machine inner
  rw [entered] at once
  have again : LeadsBy logic setting machine
      ((Node.listExec setting.surroundings machine.scene body >>= pure).map
        (machine.resume head)) :=
    LeadsBy.bind once fun scene _ => LeadsBy.of_execute jumped rfl
  rwa [bind_pure] at again

theorem Node.loopBy_leads (var : String) (varSpan : Span) (iterable : Expr) {body : List Node}
    (span : Span) (simulated : Node.ListSimulated setting logic body) (machine : Machine)
    (placed : CodeAt setting.program machine.pc
      ((Node.loop var varSpan iterable body span).codeBy logic machine.pc)) :
    LeadsBy logic setting machine
      (((Node.loop var varSpan iterable body span).exec setting.surroundings machine.scene).map
        (machine.resume
          (machine.pc + (Node.loop var varSpan iterable body span).sizeBy logic))) := by
  obtain ⟨front, jumped⟩ := CodeAt.append.mp placed
  obtain ⟨first, inside⟩ := CodeAt.append.mp front
  obtain ⟨started, looped⟩ := CodeAt.cons.mp inside
  obtain ⟨bound, inner⟩ := CodeAt.cons.mp looped
  have size : machine.pc + (Node.loop var varSpan iterable body span).sizeBy logic =
      machine.pc + (iterable.codeBy logic machine.pc).length + 1 + 1 +
        Node.listSizeBy logic body + 1 := by
    simp only [Node.sizeBy, iterable.length_codeBy logic machine.pc]
    omega
  simp only [List.length_append, List.length_cons, Node.length_listCodeBy logic,
    ← Nat.add_assoc, Nat.add_right_comm _ (Node.listSizeBy logic body) 1] at bound jumped
  simp only [Node.exec, size, Nat.add_right_comm _ (Node.listSizeBy logic body) 1]
  apply LeadsBy.bind (iterable.codeBy_leads setting logic machine first)
  intro value _
  have opening := Machine.iterStart_reach machine
    (machine.pc + (iterable.codeBy logic machine.pc).length + 1) value
  cases listed : value.toJson.loopItems? with
  | none =>
      simp only [listed] at opening
      exact LeadsBy.of_reach started opening
  | some items =>
      simp only [listed] at opening
      apply LeadsBy.then_reach started opening
      have turns := Scene.iterate_leads setting logic var _ items
        (fun scene => Node.listExec setting.surroundings scene body) _ bound
        (Node.roundBy_leads setting logic simulated inner (CodeAt.singleton.mp jumped))
        ((machine.withLoops (⟨items, 0⟩ :: machine.loops)).resume
          (machine.pc + (iterable.codeBy logic machine.pc).length + 1) machine.scene.openLoop)
        machine.loops 0 rfl (Machine.loops_resume ..)
      simp only [List.drop_zero, Machine.scene_resume, Machine.withLoops_resume,
        Machine.withLoops_withLoops, Machine.resume_resume,
        Machine.withLoops_self rfl] at turns ⊢
      apply LeadsBy.bind turns
      intro scene _
      exact .refl

/-- The arguments of a tag and its call; `after` is the machine once the body has been taken. -/
theorem Node.callBy_leads (name : String) (args : List Arg) (hasBody : Bool) (machine : Machine)
    (placed : CodeAt setting.program machine.pc
      (Expr.listCodeBy logic machine.pc (Arg.pushed args) ++ [Arg.call name args hasBody]))
    (body : Option Builder) (after : Machine)
    (taken : (machine.jumpTo (machine.pc +
      (Expr.listCodeBy logic machine.pc (Arg.pushed args)).length + 1)).popBody hasBody =
        .ok (body, after)) :
    LeadsBy logic setting machine ((do
      let positional ← Expr.listEval setting.surroundings machine.frames (Arg.positionals args)
      let values ← Expr.listEval setting.surroundings machine.frames
        (List.map Prod.snd (Arg.keywords args))
      after.scene.callTag setting.surroundings name positional
        (List.map Prod.fst (Arg.keywords args)) values body).map (after.resume after.pc)) := by
  obtain ⟨operands, fetched⟩ := CodeAt.append.mp placed
  rw [Arg.pushed, Expr.listCodeBy_append logic] at operands
  obtain ⟨first, second⟩ := CodeAt.append.mp operands
  apply LeadsBy.bind (Expr.listCodeBy_leads setting logic _ machine first)
  intro positional counted
  refine LeadsBy.bind (Expr.listCodeBy_leads setting logic _ (machine.reach _ positional) second)
    fun values matched => ?_
  have keyed : (List.map Prod.fst (Arg.keywords args)).length = values.length := by
    rw [Expr.length_of_listEval matched, List.length_map, List.length_map]
  have last := CodeAt.singleton.mp fetched
  rw [Arg.pushed, Expr.listCodeBy_append logic, List.length_append, ← Nat.add_assoc] at last taken
  rw [Arg.call, ← Expr.length_of_listEval counted] at last
  rw [Machine.reach_reach]
  exact LeadsBy.of_reach last
    (Machine.callTag_reach setting machine _ name positional values _ hasBody body after keyed taken)

/-- A tag with a body, which is written to a builder of its own. -/
theorem Node.blockBy_leads (name : String) (nameSpan : Span) (args : List Arg) {body : List Node}
    (span : Span) (simulated : Node.ListSimulated setting logic body) (machine : Machine)
    (placed : CodeAt setting.program machine.pc
      ((Node.tag name nameSpan args (some body) span).codeBy logic machine.pc)) :
    LeadsBy logic setting machine
      (((Node.tag name nameSpan args (some body) span).exec setting.surroundings machine.scene).map
        (machine.resume
          (machine.pc + (Node.tag name nameSpan args (some body) span).sizeBy logic))) := by
  obtain ⟨front, called⟩ := CodeAt.append.mp placed
  obtain ⟨opened, operands⟩ := CodeAt.append.mp front
  obtain ⟨fetched, inner⟩ := CodeAt.cons.mp opened
  have capture : (machine.jumpTo (machine.pc + 1)).execute setting .capture =
      .ok (machine.openCapture.jumpTo (machine.pc + 1)) := rfl
  have size : machine.pc + (Node.tag name nameSpan args (some body) span).sizeBy logic =
      machine.pc + 1 + Node.listSizeBy logic body +
        (Expr.listCodeBy logic (machine.pc + 1 + Node.listSizeBy logic body)
          (Arg.pushed args)).length + 1 := by
    simp only [Node.sizeBy, Expr.length_listCodeBy logic _ (machine.pc + 1 + _)]
    omega
  have entry :
      machine.pc + (Instr.capture :: Node.listCodeBy logic (machine.pc + 1) body).length =
        machine.pc + 1 + Node.listSizeBy logic body := by
    simp only [List.length_cons, Node.length_listCodeBy logic]
    omega
  rw [List.length_append, ← Nat.add_assoc] at called
  rw [entry, Node.length_listCodeBy logic] at operands called
  simp only [Node.exec, size]
  apply LeadsBy.then_execute fetched capture
  have rendered := simulated (machine.openCapture.jumpTo (machine.pc + 1)) inner
  simp only [Machine.scene_jumpTo, Machine.scene_openCapture, Machine.resume_jumpTo,
    Machine.pc_jumpTo] at rendered
  apply LeadsBy.bind rendered
  intro scene _
  have call := Node.callBy_leads setting logic name args true
    (machine.openCapture.resume (machine.pc + 1 + Node.listSizeBy logic body) scene)
    (CodeAt.append.mpr ⟨operands, called⟩) _ _ (Machine.popBody_openCapture machine _ _ scene)
  simp only [Machine.scene_resume, Machine.resume_resume, Machine.resume_pc] at call
  exact call

mutual

theorem Node.codeBy_leads (node : Node) (machine : Machine)
    (placed : CodeAt setting.program machine.pc (node.codeBy logic machine.pc)) :
    LeadsBy logic setting machine ((node.exec setting.surroundings machine.scene).map
      (machine.resume (machine.pc + node.sizeBy logic))) := by
  match node with
  | .text content _ =>
      simp only [Node.codeBy, Node.sizeBy, Node.exec] at placed ⊢
      split at placed
      next blank =>
        simp only [blank, ↓reduceIte, Scene.write_empty, Except.map, Machine.resume_scene]
        exact .refl
      next written =>
        simp only [written, ↓reduceIte]
        exact LeadsBy.of_execute (CodeAt.singleton.mp placed)
          (congrArg Except.ok (Machine.write_jumpTo machine _ content))
  | .output expr _ =>
      obtain ⟨first, fetched⟩ := CodeAt.append.mp placed
      simp only [Node.exec, Node.sizeBy, ← expr.length_codeBy logic machine.pc]
      apply LeadsBy.bind (expr.codeBy_leads setting logic machine first)
      intro value _
      exact LeadsBy.of_reach (CodeAt.singleton.mp fetched) (Machine.emit_reach ..)
  | .branch arms none _ =>
      simp only [Node.exec, Node.sizeBy]
      apply LeadsBy.bind (Node.armsCodeBy_leads arms _ machine placed)
      intro taken _
      cases taken with
      | some scene => exact .refl
      | none =>
          simp only [Except.map, pure, Except.pure, Option.getD_none, Machine.resume_scene]
          exact .refl
  | .branch arms (some otherwise) _ =>
      obtain ⟨first, last⟩ := CodeAt.append.mp placed
      rw [Node.length_armsCodeBy logic] at last
      simp only [Node.exec, Node.sizeBy]
      apply LeadsBy.bind (Node.armsCodeBy_leads arms _ machine first)
      intro taken _
      cases taken with
      | some scene =>
          rw [Nat.add_assoc]
          exact .refl
      | none =>
          have rest := Node.listCodeBy_leads otherwise
            (machine.jumpTo (machine.pc + Node.armsSizeBy logic arms)) last
          simpa [Nat.add_assoc] using rest
  | .loop var varSpan iterable body span =>
      exact Node.loopBy_leads setting logic var varSpan iterable span
        (Node.listCodeBy_leads body) machine placed
  | .assign var _ value _ =>
      obtain ⟨first, fetched⟩ := CodeAt.append.mp placed
      simp only [Node.exec, Node.sizeBy, ← value.length_codeBy logic machine.pc]
      apply LeadsBy.bind (value.codeBy_leads setting logic machine first)
      intro slot _
      exact LeadsBy.of_reach (CodeAt.singleton.mp fetched)
        (congrArg Except.ok (Machine.assign_jumpTo machine _ var slot))
  | .tag name _ args none _ =>
      have call := Node.callBy_leads setting logic name args false machine placed none _ rfl
      simp only [Machine.scene_jumpTo, Machine.resume_jumpTo, Machine.pc_jumpTo] at call
      simp only [Node.exec, Node.sizeBy, ← Expr.length_listCodeBy logic _ machine.pc,
        ← Nat.add_assoc]
      exact call
  | .tag name nameSpan args (some body) span =>
      exact Node.blockBy_leads setting logic name nameSpan args span (Node.listCodeBy_leads body)
        machine placed

/-- An arm that is taken ends at `stop`; if none is, the run goes on after all of them. -/
theorem Node.armsCodeBy_leads (arms : List (Expr × List Node)) (stop : Nat) (machine : Machine)
    (placed : CodeAt setting.program machine.pc (Node.armsCodeBy logic machine.pc stop arms)) :
    LeadsBy logic setting machine
      ((Node.armsExec setting.surroundings machine.scene arms).map fun taken =>
        match taken with
        | some scene => machine.resume stop scene
        | none => machine.jumpTo (machine.pc + Node.armsSizeBy logic arms)) := by
  match arms with
  | [] => exact .refl
  | (condition, body) :: rest =>
      obtain ⟨front, back⟩ := CodeAt.append.mp placed
      obtain ⟨first, inside⟩ := CodeAt.append.mp front
      obtain ⟨tested, inner⟩ := CodeAt.cons.mp inside
      obtain ⟨jumped, others⟩ := CodeAt.cons.mp back
      have size : machine.pc + Node.armsSizeBy logic ((condition, body) :: rest) =
          machine.pc + (condition.codeBy logic machine.pc).length + 1 +
            Node.listSizeBy logic body + 1 + Node.armsSizeBy logic rest := by
        simp only [Node.armsSizeBy, condition.length_codeBy logic machine.pc]
        omega
      simp only [List.length_append, List.length_cons, Node.length_listCodeBy logic,
        ← Nat.add_assoc, Nat.add_right_comm _ (Node.listSizeBy logic body) 1]
        at tested jumped others
      simp only [Node.armsExec, size, Nat.add_right_comm _ (Node.listSizeBy logic body) 1]
      apply LeadsBy.bind (condition.codeBy_leads setting logic machine first)
      intro value _
      apply LeadsBy.then_reach tested (Machine.execute_jumpIfFalse ..)
      cases value.isTruthy with
      | true =>
          have taken := Node.listCodeBy_leads body (machine.jumpTo _) inner
          simp only [Machine.scene_jumpTo, Machine.resume_jumpTo] at taken
          apply LeadsBy.bind taken
          intro scene _
          exact LeadsBy.of_execute jumped rfl
      | false => simpa using Node.armsCodeBy_leads rest stop (machine.jumpTo _) others

theorem Node.listCodeBy_leads (nodes : List Node) (machine : Machine)
    (placed : CodeAt setting.program machine.pc (Node.listCodeBy logic machine.pc nodes)) :
    LeadsBy logic setting machine ((Node.listExec setting.surroundings machine.scene nodes).map
      (machine.resume (machine.pc + Node.listSizeBy logic nodes))) := by
  match nodes with
  | [] =>
      simp only [Node.listExec, Except.map, Machine.resume_scene]
      exact .refl
  | node :: rest =>
      obtain ⟨first, others⟩ := CodeAt.append.mp placed
      rw [node.length_codeBy logic] at others
      simp only [Node.listExec, Node.listSizeBy]
      apply LeadsBy.bind (node.codeBy_leads machine first)
      intro scene _
      have last := Node.listCodeBy_leads rest
        (machine.resume (machine.pc + node.sizeBy logic) scene) others
      simpa [Nat.add_assoc] using last

end

end

/-- The code that programs are made of. -/
theorem Node.listCode_leads (setting : Setting) (nodes : List Node) (machine : Machine)
    (placed : CodeAt setting.program machine.pc (Node.listCode machine.pc nodes)) :
    Leads setting machine ((Node.listExec setting.surroundings machine.scene nodes).map
      (machine.resume (machine.pc + Node.listSize nodes))) := by
  rw [← Node.listCodeBy_shortCircuit] at placed
  rw [← Node.listSizeBy_shortCircuit]
  exact (Node.listCodeBy_leads setting .shortCircuit nodes machine placed).leads

end QueryTemplate
