import QueryTemplate.Execution.Machine

set_option autoImplicit false

/- How an instruction succeeds, with the machine that it leaves. What is kept by every step is
proved by these cases, and no longer by the way in which operands are popped. -/

namespace QueryTemplate

/-- What holds of a result if there is one. -/
def Gives {α : Type} (post : α → Prop) (result : Except RuntimeError α) : Prop :=
  ∀ value, result = .ok value → post value

namespace Gives

variable {α β : Type} {post : α → Prop} {final : β → Prop}

theorem ok {value : α} (holds : post value) : Gives post (.ok value) := by
  rintro _ ⟨⟩
  exact holds

theorem error (failure : RuntimeError) : Gives post (.error failure) :=
  fun _ succeeded => nomatch succeeded

theorem bind {result : Except RuntimeError α} {next : α → Except RuntimeError β}
    (first : Gives post result) (rest : ∀ value, post value → Gives final (next value)) :
    Gives final (result >>= next) := by
  cases result with
  | error failure => exact error failure
  | ok value => exact rest value (first value rfl)

/-- What follows holds whatever came before. -/
theorem of_bind {result : Except RuntimeError α} {next : α → Except RuntimeError β}
    (rest : ∀ value, Gives final (next value)) : Gives final (result >>= next) :=
  bind (fun _ _ => trivial) fun value (_ : True) => rest value

end Gives

namespace Machine

/-- The machine without the topmost values of its stack. -/
def drop (machine : Machine) (count : Nat) : Machine :=
  { machine with stack := machine.stack.drop count }

/-- The topmost values as data, in the order in which they were pushed. -/
def operands (machine : Machine) (count : Nat) : List Json :=
  (machine.stack.take count).reverse.map Slot.toJson

@[simp] theorem drop_drop (machine : Machine) (count more : Nat) :
    (machine.drop count).drop more = machine.drop (count + more) :=
  congrArg (fun stack => { machine with stack }) List.drop_drop

/-- What a call takes for the body of its tag, and the machine without it. -/
inductive TakesBody (machine : Machine) : (hasBody : Bool) → Option Builder → Machine → Prop
  | none : TakesBody machine false none machine
  | captured {body : Builder} {captures : List Builder}
      (innermost : machine.captures = body :: captures) :
      TakesBody machine true (some body) { machine with captures }

variable {setting : Setting} {machine next : Machine} {instr : Instr}

theorem gives_pop (machine : Machine) (mnemonic : String) :
    Gives (fun popped => machine.stack.head? = some popped.1 ∧ popped.2 = machine.drop 1)
      (machine.pop mnemonic) := by
  unfold pop drop
  cases machine.stack with
  | nil => exact .error _
  | cons slot stack => exact .ok ⟨rfl, rfl⟩

theorem gives_popValues (machine : Machine) (count : Nat) (mnemonic : String) :
    Gives (· = (machine.operands count, machine.drop count))
      (machine.popValues count mnemonic) := by
  unfold popValues
  split
  · exact .error _
  · exact .ok rfl

theorem gives_popBody (machine : Machine) (hasBody : Bool) :
    Gives (fun popped => machine.TakesBody hasBody popped.1 popped.2)
      (machine.popBody hasBody) := by
  cases hasBody with
  | false => exact .ok .none
  | true =>
      unfold popBody
      cases captured : machine.captures with
      | nil => exact .error _
      | cons body captures => exact .ok (.captured captured)

/-- What a call takes from the machine and hands to the runner, and what remains. -/
def hand (setting : Setting) (machine : Machine) (argc : Nat) (kwargs : List String)
    (hasBody : Bool) : Except RuntimeError (TagContext × Machine) := do
  let (values, machine) ← machine.popValues kwargs.length "call_tag"
  let (args, machine) ← machine.popValues argc "call_tag"
  let (body, machine) ← machine.popBody hasBody
  return (machine.context setting.data args (Table.ofList (kwargs.zip values)) body, machine)

/-- What becomes of the rest when the runner of a tag is called. -/
def answer (setting : Setting) (rest : Machine) (name : String) (context : TagContext) :
    Except RuntimeError Machine :=
  match Table.get? setting.runtime.tags name with
  | none => .error (.unknownTag name)
  | some run =>
    match run context with
    | .error error => .error (.extension error)
    | .ok effects => .ok (effects.foldl perform rest)

theorem callTag_eq (setting : Setting) (machine : Machine) (name : String) (argc : Nat)
    (kwargs : List String) (hasBody : Bool) :
    machine.callTag setting name argc kwargs hasBody =
      machine.hand setting argc kwargs hasBody >>= fun handed =>
        handed.2.answer setting name handed.1 := by
  unfold callTag hand
  simp only [bind_assoc]
  rfl

/-- What is handed over when a call finds its operands and its body, and what remains. -/
theorem takesBody_of_hand {context : TagContext} {rest : Machine} {argc : Nat}
    {kwargs : List String} {hasBody : Bool}
    (hands : machine.hand setting argc kwargs hasBody = .ok (context, rest)) :
    ∃ body, (machine.drop (kwargs.length + argc)).TakesBody hasBody body rest ∧
      context = rest.context setting.data ((machine.drop kwargs.length).operands argc)
        (Table.ofList (kwargs.zip (machine.operands kwargs.length))) body := by
  have gives : Gives (fun handed => ∃ body,
        (machine.drop (kwargs.length + argc)).TakesBody hasBody body handed.2 ∧
        handed.1 = handed.2.context setting.data ((machine.drop kwargs.length).operands argc)
          (Table.ofList (kwargs.zip (machine.operands kwargs.length))) body)
      (machine.hand setting argc kwargs hasBody) := by
    refine (gives_popValues machine kwargs.length "call_tag").bind ?_
    rintro _ rfl
    refine (gives_popValues _ argc "call_tag").bind ?_
    rintro _ rfl
    rw [drop_drop]
    exact (gives_popBody _ hasBody).bind fun ⟨body, rest⟩ takes => .ok ⟨body, takes, rfl⟩
  exact gives (context, rest) hands

/-- The ways in which an instruction succeeds. -/
inductive Succeeds (setting : Setting) (machine : Machine) : Instr → Machine → Prop
  | text (content : String) :
      Succeeds setting machine (.text content)
        (machine.setOutput (machine.output.push content.toList))
  | const (value : Json) : Succeeds setting machine (.const value) (machine.pushData value)
  | load {name : String} {slot : Slot} (found : machine.lookup setting.data name = some slot) :
      Succeeds setting machine (.load name) (machine.push slot)
  | loadNull {name : String} (absent : machine.lookup setting.data name = none)
      (lenient : setting.strict = false) :
      Succeeds setting machine (.load name) (machine.pushData .null)
  | attr (name : String) {slot : Slot} (top : machine.stack.head? = some slot) :
      Succeeds setting machine (.attr name)
        ((machine.drop 1).pushData (slot.toJson.member name))
  | negate {slot : Slot} (top : machine.stack.head? = some slot) :
      Succeeds setting machine .negate ((machine.drop 1).pushData (.bool !slot.isTruthy))
  | binary (op : BinaryOp) {left right : Slot} (last : machine.stack.head? = some right)
      (first : (machine.drop 1).stack.head? = some left) :
      Succeeds setting machine (.binary op) ((machine.drop 2).push (.binary op left right))
  | filter {awaited : Bool} {name : String} {argc : Nat} {runner : FilterRunner} {target : Slot}
      {value : Json} (found : Table.get? setting.runtime.filters name = some runner)
      (awaits : (runner.isAsync && !awaited) = false)
      (below : (machine.drop argc).stack.head? = some target)
      (transforms : runner.transform target.toJson (machine.operands argc) = .ok value) :
      Succeeds setting machine (.filter awaited name argc)
        ((machine.drop (argc + 1)).pushData value)
  | splice {builder : Builder} (top : machine.stack.head? = some (.builder builder)) :
      Succeeds setting machine .emit
        ((machine.drop 1).setOutput (machine.output.append builder))
  | bind {value : Json} (top : machine.stack.head? = some (.data value)) :
      Succeeds setting machine .emit ((machine.drop 1).setOutput (machine.output.bind value))
  | assign (name : String) {slot : Slot} (top : machine.stack.head? = some slot) :
      Succeeds setting machine (.assign name) ((machine.drop 1).assign name slot)
  | jump (target : Nat) : Succeeds setting machine (.jump target) (machine.jumpTo target)
  | holds (target : Nat) {condition : Slot} (top : machine.stack.head? = some condition)
      (truthy : condition.isTruthy = true) :
      Succeeds setting machine (.jumpIfFalse target) (machine.drop 1)
  | fails (target : Nat) {condition : Slot} (top : machine.stack.head? = some condition)
      (falsy : condition.isTruthy = false) :
      Succeeds setting machine (.jumpIfFalse target) ((machine.drop 1).jumpTo target)
  | keepFalse (target : Nat) {slot : Slot} (top : machine.stack.head? = some slot)
      (falsy : slot.isTruthy = false) :
      Succeeds setting machine (.jumpIfFalseOrPop target) (machine.jumpTo target)
  | dropTrue (target : Nat) {slot : Slot} (top : machine.stack.head? = some slot)
      (truthy : slot.isTruthy = true) :
      Succeeds setting machine (.jumpIfFalseOrPop target) (machine.drop 1)
  | keepTrue (target : Nat) {slot : Slot} (top : machine.stack.head? = some slot)
      (truthy : slot.isTruthy = true) :
      Succeeds setting machine (.jumpIfTrueOrPop target) (machine.jumpTo target)
  | dropFalse (target : Nat) {slot : Slot} (top : machine.stack.head? = some slot)
      (falsy : slot.isTruthy = false) :
      Succeeds setting machine (.jumpIfTrueOrPop target) (machine.drop 1)
  | openLoop {slot : Slot} {items : List Json} (top : machine.stack.head? = some slot)
      (listed : slot.toJson.loopItems? = some items) :
      Succeeds setting machine .iterStart
        { machine.drop 1 with
          loops := ⟨items, 0⟩ :: machine.loops, frames := [] :: machine.frames }
  | closeLoop (var : String) (exit : Nat) {loop : Loop} {loops : List Loop}
      (innermost : machine.loops = loop :: loops)
      (spent : loop.items[loop.position]? = none) :
      Succeeds setting machine (.iterNext var exit)
        { machine with pc := exit, loops, frames := machine.frames.tail }
  | bindItem (var : String) (exit : Nat) {loop : Loop} {loops : List Loop} {item : Json}
      (innermost : machine.loops = loop :: loops)
      (left : loop.items[loop.position]? = some item) :
      Succeeds setting machine (.iterNext var exit)
        ((({ machine with loops := { loop with position := loop.position + 1 } :: loops } :
          Machine).assign var (.data item)).assign "loop"
            (.data (Loop.status loop.position loop.items.length)))
  | capture : Succeeds setting machine .capture { machine with captures := .empty :: machine.captures }
  | callTag {name : String} {argc : Nat} {kwargs : List String} {hasBody : Bool}
      {context : TagContext} {rest : Machine} {run : TagRunner} {effects : List TagEffect}
      (hands : machine.hand setting argc kwargs hasBody = .ok (context, rest))
      (found : Table.get? setting.runtime.tags name = some run)
      (ran : run context = .ok effects) :
      Succeeds setting machine (.callTag name argc kwargs hasBody) (effects.foldl perform rest)
  | deliver : Succeeds setting machine .deliver machine.deliver

theorem succeeds_load (name : String) :
    Gives (Succeeds setting machine (.load name)) (machine.load setting name) := by
  unfold Machine.load
  split
  next slot found => exact .ok (.load found)
  next absent =>
    split
    next => exact .error _
    next lenient => exact .ok (.loadNull absent (Bool.eq_false_iff.mpr lenient))

theorem succeeds_filter (awaited : Bool) (name : String) (argc : Nat) :
    Gives (Succeeds setting machine (.filter awaited name argc))
      (machine.applyFilter setting.runtime awaited name argc) := by
  refine (gives_popValues machine argc "filter").bind ?_
  rintro _ rfl
  refine (gives_pop _ "filter").bind ?_
  rintro ⟨target, _⟩ ⟨below, rfl⟩
  rw [drop_drop]
  dsimp only
  split
  next => exact .error _
  next runner found =>
    split
    next => exact .error _
    next awaits =>
      split
      next => exact .error _
      next value transforms =>
        exact .ok (.filter found (Bool.eq_false_iff.mpr awaits) below transforms)

theorem succeeds_emit : Gives (Succeeds setting machine .emit) machine.emit := by
  refine (gives_pop machine "emit").bind ?_
  rintro ⟨slot, _⟩ ⟨top, rfl⟩
  cases slot with
  | builder builder => exact .ok (.splice top)
  | data value => exact .ok (.bind top)

theorem succeeds_iterStart : Gives (Succeeds setting machine .iterStart) machine.iterStart := by
  refine (gives_pop machine "iter_start").bind ?_
  rintro ⟨slot, _⟩ ⟨top, rfl⟩
  dsimp only
  split
  next => exact .error _
  next items listed => exact .ok (.openLoop top listed)

theorem succeeds_iterNext (var : String) (exit : Nat) :
    Gives (Succeeds setting machine (.iterNext var exit)) (machine.iterNext var exit) := by
  unfold iterNext
  split
  next => exact .error _
  next loop loops innermost =>
    split
    next spent => exact .ok (.closeLoop var exit innermost spent)
    next item left => exact .ok (.bindItem var exit innermost left)

theorem gives_shortCircuit (truth : Bool) (target : Nat) (mnemonic : String) :
    Gives (fun next => ∃ slot, machine.stack.head? = some slot ∧
        next = if slot.isTruthy = truth then machine.jumpTo target else machine.drop 1)
      (machine.shortCircuit truth target mnemonic) := by
  unfold shortCircuit drop
  cases machine.stack with
  | nil => exact .error _
  | cons slot stack =>
      dsimp only
      split
      next same => exact .ok ⟨slot, rfl, (if_pos same).symm⟩
      next other => exact .ok ⟨slot, rfl, (if_neg other).symm⟩

theorem succeeds_callTag (name : String) (argc : Nat) (kwargs : List String) (hasBody : Bool) :
    Gives (Succeeds setting machine (.callTag name argc kwargs hasBody))
      (machine.callTag setting name argc kwargs hasBody) := by
  rw [callTag_eq]
  cases hands : machine.hand setting argc kwargs hasBody with
  | error error => exact .error error
  | ok handed =>
      change Gives _ (handed.2.answer setting name handed.1)
      unfold answer
      split
      next => exact .error _
      next run found =>
        split
        next => exact .error _
        next effects ran => exact .ok (.callTag hands found ran)

/-- There are no other ways. -/
theorem succeeds_execute (setting : Setting) (machine : Machine) (instr : Instr) :
    Gives (Succeeds setting machine instr) (machine.execute setting instr) := by
  cases instr with
  | text content => exact .ok (.text content)
  | const value => exact .ok (.const value)
  | load name => exact succeeds_load name
  | attr name =>
      refine (gives_pop machine "attr").bind ?_
      rintro ⟨slot, _⟩ ⟨top, rfl⟩
      exact .ok (.attr name top)
  | negate =>
      refine (gives_pop machine "not").bind ?_
      rintro ⟨slot, _⟩ ⟨top, rfl⟩
      exact .ok (.negate top)
  | binary op =>
      refine (gives_pop machine "binop").bind ?_
      rintro ⟨right, _⟩ ⟨last, rfl⟩
      refine (gives_pop _ "binop").bind ?_
      rintro ⟨left, _⟩ ⟨first, rfl⟩
      rw [drop_drop]
      exact .ok (.binary op last first)
  | filter awaited name argc => exact succeeds_filter awaited name argc
  | emit => exact succeeds_emit
  | assign name =>
      refine (gives_pop machine "set").bind ?_
      rintro ⟨slot, _⟩ ⟨top, rfl⟩
      exact .ok (.assign name top)
  | jump target => exact .ok (.jump target)
  | jumpIfFalse target =>
      refine (gives_pop machine "jump_if_false").bind ?_
      rintro ⟨condition, _⟩ ⟨top, rfl⟩
      dsimp only
      split
      next truthy => exact .ok (.holds target top truthy)
      next falsy => exact .ok (.fails target top (Bool.eq_false_iff.mpr falsy))
  | jumpIfFalseOrPop target =>
      intro next done
      obtain ⟨slot, top, rfl⟩ := gives_shortCircuit false target _ next done
      split
      next falsy => exact .keepFalse target top falsy
      next truthy => exact .dropTrue target top (eq_true_of_ne_false truthy)
  | jumpIfTrueOrPop target =>
      intro next done
      obtain ⟨slot, top, rfl⟩ := gives_shortCircuit true target _ next done
      split
      next truthy => exact .keepTrue target top truthy
      next falsy => exact .dropFalse target top (Bool.eq_false_iff.mpr falsy)
  | iterStart => exact succeeds_iterStart
  | iterNext var exit => exact succeeds_iterNext var exit
  | capture => exact .ok .capture
  | callTag name argc kwargs hasBody => exact succeeds_callTag name argc kwargs hasBody
  | deliver => exact .ok .deliver

theorem succeeds_of_fetched (fetched : setting.program[machine.pc]? = some instr)
    (stepped : machine.step? setting = some (.ok next)) :
    Succeeds setting (machine.jumpTo (machine.pc + 1)) instr next := by
  simp only [step?, fetched, Option.some.injEq] at stepped
  exact succeeds_execute setting _ instr next stepped

/-- A step executes the instruction that the program counter points to. -/
theorem succeeds_of_step (stepped : machine.step? setting = some (.ok next)) :
    ∃ instr, setting.program[machine.pc]? = some instr ∧
      Succeeds setting (machine.jumpTo (machine.pc + 1)) instr next := by
  cases fetched : setting.program[machine.pc]? with
  | none =>
      simp only [step?, fetched] at stepped
      cases stepped
  | some instr => exact ⟨instr, rfl, succeeds_of_fetched fetched stepped⟩

end Machine

end QueryTemplate
