import QueryTemplate.Proofs.Code.Runs
import QueryTemplate.Proofs.Meaning

set_option autoImplicit false

/- The code of an expression pushes the value of the expression and changes nothing else, or fails
with the error of the expression. Eager code does so too, except that it may fail where the value of
a skipped operand does not matter. -/

namespace QueryTemplate

def Setting.surroundings (setting : Setting) : Surroundings :=
  ⟨setting.runtime, setting.strict, setting.data⟩

/-- Whether the left operand of an operator is its result, whatever the right one is. -/
def BinaryOp.decidedBy (op : BinaryOp) (left : Slot) : Bool :=
  match op with
  | .and => !left.isTruthy
  | .or => left.isTruthy
  | _ => false

theorem Slot.binary_of_decidedBy {op : BinaryOp} {left : Slot} (decided : op.decidedBy left = true)
    (right : Slot) : Slot.binary op left right = left := by
  cases op <;> simp_all [BinaryOp.decidedBy, Slot.binary]

theorem Expr.eval_binary (around : Surroundings) (frames : List Frame) (op : BinaryOp)
    (left right : Expr) (span : Span) :
    (Expr.binary op left right span).eval around frames = do
      let value ← left.eval around frames
      if op.decidedBy value then return value
      else do
        let other ← right.eval around frames
        return .binary op value other := by
  cases op
  case and =>
    refine bind_congr fun value => ?_
    cases truthy : value.isTruthy <;> simp [BinaryOp.decidedBy, Slot.binary, truthy]
  case or =>
    refine bind_congr fun value => ?_
    cases truthy : value.isTruthy <;> simp [BinaryOp.decidedBy, Slot.binary, truthy]
  all_goals rfl

namespace Logic

variable {logic : Logic} {op : BinaryOp}

/-- Code that evaluates both operands of an operator that needs only one is eager. -/
theorem eq_eager_of_decidedBy (unskipped : logic.skip? op = none) {left : Slot}
    (decided : op.decidedBy left = true) : logic = .eager := by
  cases logic <;> cases op <;> simp_all [skip?, BinaryOp.decidedBy]

/-- An operator that may skip its right operand gives the right operand otherwise. -/
theorem binary_of_skip {skip : Nat → Instr} (skips : logic.skip? op = some skip) {left : Slot}
    (undecided : op.decidedBy left = false) (right : Slot) : Slot.binary op left right = right := by
  cases logic <;> cases op <;> simp_all [skip?, BinaryOp.decidedBy, Slot.binary]

end Logic

namespace Machine

/-- Goes on at an address after pushing values in order. -/
def reach (machine : Machine) (pc : Nat) (slots : List Slot) : Machine :=
  { machine with pc, stack := slots.reverse ++ machine.stack }

@[simp] theorem reach_pc (machine : Machine) (pc : Nat) (slots : List Slot) :
    (machine.reach pc slots).pc = pc := rfl

@[simp] theorem reach_frames (machine : Machine) (pc : Nat) (slots : List Slot) :
    (machine.reach pc slots).frames = machine.frames := rfl

@[simp] theorem reach_reach (machine : Machine) (pc next : Nat) (slots others : List Slot) :
    (machine.reach pc slots).reach next others = machine.reach next (slots ++ others) := by
  simp only [reach, List.reverse_append, List.append_assoc]

theorem lookupFrames_eq (name : String) (frames : List Frame) :
    lookupFrames name frames = frames.findSome? fun frame => Table.get? frame name := by
  induction frames with
  | nil => rfl
  | cons frame frames ih =>
      simp only [lookupFrames, List.findSome?_cons, ih]
      cases Table.get? frame name <;> rfl

theorem lookup_eq (setting : Setting) (machine : Machine) (name : String) :
    machine.lookup setting.data name = setting.surroundings.lookup machine.frames name := by
  rw [Surroundings.lookup, ← lookupFrames_eq]
  rfl

/-- Values that were pushed in a row are popped in the order of pushing. -/
theorem popValues_reach (machine : Machine) (pc : Nat) (slots : List Slot) (mnemonic : String) :
    (machine.reach pc slots).popValues slots.length mnemonic =
      .ok (slots.map Slot.toJson, machine.reach pc []) := by
  have enough : ¬ (slots.reverse ++ machine.stack).length < slots.length := by
    simp only [List.length_append, List.length_reverse]
    omega
  have front : (slots.reverse ++ machine.stack).take slots.length = slots.reverse :=
    List.take_left' (List.length_reverse ..)
  have back : (slots.reverse ++ machine.stack).drop slots.length = machine.stack :=
    List.drop_left' (List.length_reverse ..)
  simp only [popValues, reach, enough, ↓reduceIte, front, back, List.reverse_reverse,
    List.reverse_nil, List.nil_append]

theorem applyFilter_reach (setting : Setting) (machine : Machine) (pc : Nat) (awaited : Bool)
    (name : String) (target : Slot) (args : List Slot) :
    (machine.reach pc (target :: args)).applyFilter setting.runtime awaited name args.length =
      (setting.surroundings.applyFilter awaited name target.toJson
        (args.map Slot.toJson)).map fun slot => machine.reach pc [slot] := by
  rw [show machine.reach pc (target :: args) = (machine.reach pc [target]).reach pc args by
    rw [reach_reach]; rfl]
  simp only [applyFilter, popValues_reach, Setting.surroundings, Surroundings.applyFilter]
  simp only [bind, Except.bind, pop, reach, List.reverse_nil, List.nil_append,
    List.reverse_cons, List.cons_append]
  cases found : Table.get? setting.runtime.filters name with
  | none => rfl
  | some filter =>
      cases guarded : filter.isAsync && !awaited with
      | true =>
          simp only [guarded, ↓reduceIte]
          rfl
      | false =>
          simp only [guarded, Bool.false_eq_true, ↓reduceIte]
          cases filter.transform target.toJson (args.map Slot.toJson) <;> rfl

/-- The value that decides stays there at the target of the jump. -/
theorem execute_skip {logic : Logic} {op : BinaryOp} {skip : Nat → Instr}
    (skips : logic.skip? op = some skip) (setting : Setting) (machine : Machine) (pc target : Nat)
    (slot : Slot) :
    (machine.reach pc [slot]).execute setting (skip target) =
      .ok (if op.decidedBy slot then machine.reach target [slot] else machine.reach pc []) := by
  unfold Logic.skip? at skips
  split at skips
  · cases skips
    change (if slot.isTruthy = false then _ else _ : Except RuntimeError Machine) = _
    cases truthy : slot.isTruthy <;> simp [BinaryOp.decidedBy, truthy] <;> rfl
  · cases skips
    change (if slot.isTruthy = true then _ else _ : Except RuntimeError Machine) = _
    cases truthy : slot.isTruthy <;> simp [BinaryOp.decidedBy, truthy] <;> rfl
  · cases skips

end Machine

namespace LeadsBy

variable {logic : Logic} {setting : Setting} {machine : Machine} {pc : Nat}

/-- The instruction after others that have pushed values. -/
theorem of_reach {slots : List Slot} {instr : Instr} {outcome : Except RuntimeError Machine}
    (fetched : setting.program[pc]? = some instr)
    (effect : (machine.reach (pc + 1) slots).execute setting instr = outcome) :
    LeadsBy logic setting (machine.reach pc slots) outcome := of_execute fetched effect

theorem then_reach {slots : List Slot} {instr : Instr} {next : Machine}
    {outcome : Except RuntimeError Machine} (fetched : setting.program[pc]? = some instr)
    (effect : (machine.reach (pc + 1) slots).execute setting instr = .ok next)
    (rest : LeadsBy logic setting next outcome) :
    LeadsBy logic setting (machine.reach pc slots) outcome := then_execute fetched effect rest

/-- An operator after the code of its operands. -/
theorem of_operands {op : BinaryOp} {stop : Nat}
    (fetched : setting.program[stop]? = some (.binary op)) (left right : Slot) :
    LeadsBy logic setting ((machine.reach pc [left]).reach stop [right])
      (.ok (machine.reach (stop + 1) [.binary op left right])) := by
  rw [Machine.reach_reach]
  exact of_reach fetched rfl

end LeadsBy

section

variable (setting : Setting)

theorem Expr.length_of_listEval {around : Surroundings} {frames : List Frame} {exprs : List Expr}
    {slots : List Slot} (evaluated : Expr.listEval around frames exprs = .ok slots) :
    slots.length = exprs.length := by
  induction exprs generalizing slots with
  | nil =>
      cases evaluated
      rfl
  | cons expr rest ih =>
      simp only [Expr.listEval] at evaluated
      cases head : expr.eval around frames with
      | error error => rw [head] at evaluated; cases evaluated
      | ok value =>
          cases tail : Expr.listEval around frames rest with
          | error error => rw [head, tail] at evaluated; cases evaluated
          | ok values =>
              rw [head, tail] at evaluated
              cases evaluated
              simp only [List.length_cons, ih tail]

theorem Expr.load_leads (name : String) (machine : Machine)
    (fetched : setting.program[machine.pc]? = some (.load name)) :
    Leads setting machine ((setting.surroundings.load machine.frames name).map fun slot =>
      machine.reach (machine.pc + 1) [slot]) := by
  apply Leads.of_execute fetched
  have found := Machine.lookup_eq setting (machine.jumpTo (machine.pc + 1)) name
  simp only [Machine.execute, Machine.load, Surroundings.load, found]
  cases bound : setting.surroundings.lookup machine.frames name with
  | some slot =>
      rw [show (machine.jumpTo (machine.pc + 1)).frames = machine.frames from rfl, bound]
      rfl
  | none =>
      rw [show (machine.jumpTo (machine.pc + 1)).frames = machine.frames from rfl, bound]
      cases strict : setting.strict <;> simp only [strict, Setting.surroundings] <;> rfl

variable (logic : Logic)

/-- Wherever the code of an expression lies, it leads from any machine to the value. -/
def Expr.Simulated (expr : Expr) : Prop :=
  ∀ machine : Machine, CodeAt setting.program machine.pc (expr.codeBy logic machine.pc) →
    LeadsBy logic setting machine
      ((expr.eval setting.surroundings machine.frames).map fun slot =>
        machine.reach (machine.pc + (expr.codeBy logic machine.pc).length) [slot])

variable {setting logic} {op : BinaryOp} {left right : Expr}

/-- An operator that jumps over its right operand. -/
theorem Expr.simulated_of_skip {skip : Nat → Instr} (skips : logic.skip? op = some skip)
    (leftSimulated : left.Simulated setting logic) (rightSimulated : right.Simulated setting logic)
    (span : Span) : (Expr.binary op left right span).Simulated setting logic := by
  intro machine placed
  rw [Expr.eval_binary]
  simp only [Expr.codeBy, skips] at placed ⊢
  obtain ⟨first, rest⟩ := CodeAt.append.mp placed
  obtain ⟨fetched, second⟩ := CodeAt.cons.mp rest
  simp only [List.length_append, List.length_cons]
  apply LeadsBy.bind (leftSimulated machine first)
  intro value _
  apply LeadsBy.then_reach fetched (Machine.execute_skip skips setting machine _ _ value)
  have shifted := Nat.add_right_comm (machine.pc + (left.codeBy logic machine.pc).length) 1
  cases decided : op.decidedBy value with
  | true =>
      simp only [← Nat.add_assoc, shifted]
      exact .refl
  | false =>
      have last := rightSimulated (machine.reach _ []) second
      simpa [← Nat.add_assoc, shifted, Logic.binary_of_skip skips decided] using last

/-- An operator after both of its operands. -/
theorem Expr.simulated_of_operands (skips : logic.skip? op = none)
    (leftSimulated : left.Simulated setting logic) (rightSimulated : right.Simulated setting logic)
    (span : Span) : (Expr.binary op left right span).Simulated setting logic := by
  intro machine placed
  rw [Expr.eval_binary]
  simp only [Expr.codeBy, skips] at placed ⊢
  obtain ⟨operands, fetched⟩ := CodeAt.append.mp placed
  obtain ⟨first, second⟩ := CodeAt.append.mp operands
  have last := CodeAt.singleton.mp fetched
  simp only [List.length_append, List.length_singleton, ← Nat.add_assoc] at last ⊢
  apply LeadsBy.bind (leftSimulated machine first)
  intro value _
  have operand := rightSimulated (machine.reach _ [value]) second
  have combine (other : Slot) :
      LeadsBy logic setting
        ((machine.reach (machine.pc + (left.codeBy logic machine.pc).length) [value]).reach
          _ [other])
        (.ok (machine.reach _ [.binary op value other])) :=
    LeadsBy.of_operands last value other
  cases decided : op.decidedBy value with
  | false =>
      apply LeadsBy.bind operand
      intro other _
      exact combine other
  | true =>
      -- only the eager code evaluates the right operand here, and then to no effect
      simp only [Slot.binary_of_decidedBy decided] at combine
      have eager := Logic.eq_eager_of_decidedBy skips decided
      rw [eager] at operand combine ⊢
      exact LeadsBy.of_eager operand fun other _ => combine other

variable (setting logic)

mutual

theorem Expr.codeBy_leads (expr : Expr) (machine : Machine)
    (placed : CodeAt setting.program machine.pc (expr.codeBy logic machine.pc)) :
    LeadsBy logic setting machine
      ((expr.eval setting.surroundings machine.frames).map fun slot =>
        machine.reach (machine.pc + (expr.codeBy logic machine.pc).length) [slot]) := by
  match expr with
  | .literal value _ => exact LeadsBy.of_execute (CodeAt.singleton.mp placed) rfl
  | .var name _ =>
      exact (Expr.load_leads setting name machine (CodeAt.singleton.mp placed)).leadsBy logic
  | .attr target name _ =>
      obtain ⟨first, fetched⟩ := CodeAt.append.mp placed
      simp only [Expr.eval, Expr.codeBy, List.length_append]
      apply LeadsBy.bind (target.codeBy_leads machine first)
      intro value _
      exact LeadsBy.of_reach (CodeAt.singleton.mp fetched) rfl
  | .filter awaited target name _ args _ =>
      obtain ⟨operands, fetched⟩ := CodeAt.append.mp placed
      obtain ⟨first, others⟩ := CodeAt.append.mp operands
      simp only [Expr.eval, Expr.codeBy, List.length_append, List.length_singleton]
      apply LeadsBy.bind (target.codeBy_leads machine first)
      intro value _
      apply LeadsBy.bind (Expr.listCodeBy_leads args _ others)
      intro values evaluated
      rw [Machine.reach_reach]
      have last := CodeAt.singleton.mp fetched
      rw [List.length_append, ← Expr.length_of_listEval evaluated, ← Nat.add_assoc] at last
      apply LeadsBy.of_reach last
      simp only [← Nat.add_assoc]
      exact Machine.applyFilter_reach setting machine _ awaited name value values
  | .negate operand _ =>
      obtain ⟨first, fetched⟩ := CodeAt.append.mp placed
      simp only [Expr.eval, Expr.codeBy, List.length_append]
      apply LeadsBy.bind (operand.codeBy_leads machine first)
      intro value _
      exact LeadsBy.of_reach (CodeAt.singleton.mp fetched) rfl
  | .binary op left right span =>
      have first := left.codeBy_leads
      have second := right.codeBy_leads
      cases skips : logic.skip? op with
      | some skip => exact Expr.simulated_of_skip skips first second span machine placed
      | none => exact Expr.simulated_of_operands skips first second span machine placed

theorem Expr.listCodeBy_leads (exprs : List Expr) (machine : Machine)
    (placed : CodeAt setting.program machine.pc (Expr.listCodeBy logic machine.pc exprs)) :
    LeadsBy logic setting machine
      ((Expr.listEval setting.surroundings machine.frames exprs).map fun slots =>
        machine.reach (machine.pc + (Expr.listCodeBy logic machine.pc exprs).length) slots) := by
  match exprs with
  | [] => exact .refl
  | expr :: rest =>
      obtain ⟨first, others⟩ := CodeAt.append.mp placed
      simp only [Expr.listEval, Expr.listCodeBy, List.length_append]
      apply LeadsBy.bind (expr.codeBy_leads machine first)
      intro value _
      apply LeadsBy.bind (Expr.listCodeBy_leads rest _ others)
      intro values _
      rw [Machine.reach_reach, Machine.reach_pc, Nat.add_assoc]
      exact .refl

end

end

/-- The code that programs are made of. -/
theorem Expr.code_leads (setting : Setting) (expr : Expr) (machine : Machine)
    (placed : CodeAt setting.program machine.pc (expr.code machine.pc)) :
    Leads setting machine ((expr.eval setting.surroundings machine.frames).map fun slot =>
      machine.reach (machine.pc + (expr.code machine.pc).length) [slot]) := by
  rw [← Expr.codeBy_shortCircuit] at placed ⊢
  exact (expr.codeBy_leads setting .shortCircuit machine placed).leads

end QueryTemplate
