import QueryTemplate.Proofs.Code.Layout
import QueryTemplate.Execution.Machine

set_option autoImplicit false

/- Runs of the machine, told by where they lead: to another state, from which the run goes on, or to
an error. They are put together as computations that may fail are. -/

namespace QueryTemplate

namespace Machine

theorem step?_at_end {setting : Setting} {machine : Machine}
    (ended : setting.program[machine.pc]? = none) : machine.step? setting = none := by
  simp only [step?, ended]

theorem step?_of_fetched {setting : Setting} {machine : Machine} {instr : Instr}
    (fetched : setting.program[machine.pc]? = some instr) :
    machine.step? setting = some ((machine.jumpTo (machine.pc + 1)).execute setting instr) := by
  simp only [step?, fetched]

theorem run_succ (setting : Setting) (fuel : Nat) (machine : Machine) :
    run setting (fuel + 1) machine =
      match machine.step? setting with
      | none => .finished machine.exported
      | some (.error error) => .failed error
      | some (.ok next) => run setting fuel next := rfl

/-- A run at the end of the program ends whatever fuel is left. -/
theorem run_at_end {setting : Setting} {machine : Machine}
    (ended : setting.program[machine.pc]? = none) (fuel : Nat) :
    run setting fuel machine = .finished machine.exported := by
  have halted := step?_at_end ended
  cases fuel with
  | zero => simp only [run, halted]
  | succ fuel => simp only [run_succ, halted]

/-- A run that has ended stays as it is when it is given more steps. -/
theorem run_add {setting : Setting} {fuel : Nat} {machine : Machine}
    (ended : run setting fuel machine ≠ .outOfFuel) (more : Nat) :
    run setting (fuel + more) machine = run setting fuel machine := by
  induction fuel generalizing machine with
  | zero =>
      cases stepped : machine.step? setting with
      | none => cases more <;> simp only [run, stepped]
      | some result => exact absurd (by simp only [run, stepped]) ended
  | succ fuel ih =>
      rw [Nat.succ_add, run_succ, run_succ]
      rw [run_succ] at ended
      cases stepped : machine.step? setting with
      | none => rfl
      | some result =>
          rw [stepped] at ended
          cases result with
          | error error => rfl
          | ok next => exact ih ended

/-- The state after some steps; at the end of the program there are no more. -/
def advance (setting : Setting) : (steps : Nat) → Machine → Except RuntimeError Machine
  | 0, machine => .ok machine
  | steps + 1, machine =>
    match machine.step? setting with
    | none => .ok machine
    | some (.error error) => .error error
    | some (.ok next) => advance setting steps next

theorem advance_at_end {setting : Setting} {machine : Machine}
    (ended : machine.step? setting = none) (steps : Nat) :
    advance setting steps machine = .ok machine := by
  cases steps with
  | zero => rfl
  | succ steps => simp only [advance, ended]

theorem advance_add (setting : Setting) (steps more : Nat) (machine : Machine) :
    advance setting (steps + more) machine =
      advance setting steps machine >>= advance setting more := by
  induction steps generalizing machine with
  | zero =>
      rw [Nat.zero_add]
      rfl
  | succ steps ih =>
      rw [Nat.succ_add]
      cases stepped : machine.step? setting with
      | none =>
          simp only [advance, stepped]
          exact (advance_at_end stepped more).symm
      | some result =>
          cases result with
          | error error =>
              simp only [advance, stepped]
              rfl
          | ok next =>
              simp only [advance, stepped]
              exact ih next

end Machine

/-- The rest of a run from an outcome on. -/
def RunResult.after (setting : Setting) (fuel : Nat) : Except RuntimeError Machine → RunResult
  | .ok machine => machine.run setting fuel
  | .error error => .failed error

/-- A run goes through the states along it. -/
theorem Machine.run_advance (setting : Setting) (steps fuel : Nat) (machine : Machine) :
    run setting (steps + fuel) machine =
      RunResult.after setting fuel (advance setting steps machine) := by
  induction steps generalizing machine with
  | zero =>
      rw [Nat.zero_add]
      rfl
  | succ steps ih =>
      rw [Nat.succ_add, run_succ]
      cases stepped : machine.step? setting with
      | none =>
          simp only [advance, stepped, RunResult.after]
          cases fuel <;> simp only [run, stepped]
      | some result =>
          cases result with
          | error error => simp only [advance, stepped, RunResult.after]
          | ok next =>
              simp only [advance, stepped]
              exact ih next

/-- After some steps the outcome is reached from a state. -/
def Leads (setting : Setting) (machine : Machine) (outcome : Except RuntimeError Machine) : Prop :=
  ∃ steps, machine.advance setting steps = outcome

namespace Leads

variable {setting : Setting} {machine : Machine}

protected theorem refl : Leads setting machine (.ok machine) := ⟨0, rfl⟩

theorem trans {next : Machine} {outcome : Except RuntimeError Machine}
    (here : Leads setting machine (.ok next)) (there : Leads setting next outcome) :
    Leads setting machine outcome := by
  obtain ⟨steps, here⟩ := here
  obtain ⟨more, there⟩ := there
  refine ⟨steps + more, ?_⟩
  rw [Machine.advance_add, here]
  exact there

/-- One instruction. -/
theorem step {instr : Instr} (fetched : setting.program[machine.pc]? = some instr) :
    Leads setting machine ((machine.jumpTo (machine.pc + 1)).execute setting instr) := by
  refine ⟨1, ?_⟩
  simp only [Machine.advance, Machine.step?_of_fetched fetched]
  cases (machine.jumpTo (machine.pc + 1)).execute setting instr <;> rfl

/-- One instruction whose effect is known. -/
theorem of_execute {instr : Instr} {outcome : Except RuntimeError Machine}
    (fetched : setting.program[machine.pc]? = some instr)
    (effect : (machine.jumpTo (machine.pc + 1)).execute setting instr = outcome) :
    Leads setting machine outcome := effect ▸ step fetched

/-- After some steps the run from a state is the run from the outcome. -/
theorem run {outcome : Except RuntimeError Machine} (leads : Leads setting machine outcome) :
    ∃ steps, ∀ fuel, machine.run setting (steps + fuel) = RunResult.after setting fuel outcome := by
  obtain ⟨steps, reached⟩ := leads
  exact ⟨steps, fun fuel => by rw [Machine.run_advance, reached]⟩

/-- All runs to the end of the program have one outcome. -/
theorem unique {outcome : Except RuntimeError Machine} (leads : Leads setting machine outcome)
    (settled : ∀ last, outcome = .ok last → last.step? setting = none) {steps : Nat}
    {final : Machine} (reached : machine.advance setting steps = .ok final)
    (ended : final.step? setting = none) : outcome = .ok final := by
  obtain ⟨more, leads⟩ := leads
  have there := Machine.advance_add setting steps more machine
  have back := Machine.advance_add setting more steps machine
  rw [Nat.add_comm, there, reached, leads] at back
  change Machine.advance setting more final = _ at back
  rw [Machine.advance_at_end ended] at back
  cases outcome with
  | error error => cases back
  | ok last =>
      change _ = Machine.advance setting steps last at back
      rw [back, Machine.advance_at_end (settled last rfl)]

end Leads

/-- The outcome is reached from a state, unless an eager run fails on the way. -/
def LeadsBy (logic : Logic) (setting : Setting) (machine : Machine)
    (outcome : Except RuntimeError Machine) : Prop :=
  Leads setting machine outcome ∨ logic = .eager ∧ ∃ error, Leads setting machine (.error error)

theorem Leads.leadsBy {setting : Setting} {machine : Machine}
    {outcome : Except RuntimeError Machine} (leads : Leads setting machine outcome)
    (logic : Logic) : LeadsBy logic setting machine outcome := Or.inl leads

namespace LeadsBy

variable {logic : Logic} {setting : Setting} {machine : Machine}

protected theorem refl : LeadsBy logic setting machine (.ok machine) := Or.inl .refl

theorem leads {outcome : Except RuntimeError Machine}
    (here : LeadsBy .shortCircuit setting machine outcome) : Leads setting machine outcome :=
  here.resolve_right fun early => by cases early.1

theorem of_leads {next : Machine} {outcome : Except RuntimeError Machine}
    (here : Leads setting machine (.ok next)) (there : LeadsBy logic setting next outcome) :
    LeadsBy logic setting machine outcome :=
  there.imp here.trans fun ⟨eager, error, fails⟩ => ⟨eager, error, here.trans fails⟩

theorem of_execute {instr : Instr} {outcome : Except RuntimeError Machine}
    (fetched : setting.program[machine.pc]? = some instr)
    (effect : (machine.jumpTo (machine.pc + 1)).execute setting instr = outcome) :
    LeadsBy logic setting machine outcome := (Leads.of_execute fetched effect).leadsBy logic

theorem then_execute {instr : Instr} {next : Machine} {outcome : Except RuntimeError Machine}
    (fetched : setting.program[machine.pc]? = some instr)
    (effect : (machine.jumpTo (machine.pc + 1)).execute setting instr = .ok next)
    (rest : LeadsBy logic setting next outcome) : LeadsBy logic setting machine outcome :=
  of_leads (.of_execute fetched effect) rest

theorem bind {α β : Type} {first : Except RuntimeError α} {reach : α → Machine}
    {next : α → Except RuntimeError β} {finish : β → Machine}
    (here : LeadsBy logic setting machine (first.map reach))
    (there : ∀ value, first = .ok value →
      LeadsBy logic setting (reach value) ((next value).map finish)) :
    LeadsBy logic setting machine ((first >>= next).map finish) := by
  rcases here with here | early
  · cases first with
    | error error => exact here.leadsBy logic
    | ok value => exact of_leads here (there value rfl)
  · exact Or.inr early

/-- Of an eager run it is enough to know the outcome of what does not fail. -/
theorem of_eager {α : Type} {first : Except RuntimeError α} {reach : α → Machine}
    {outcome : Except RuntimeError Machine}
    (here : LeadsBy .eager setting machine (first.map reach))
    (there : ∀ value, first = .ok value → LeadsBy .eager setting (reach value) outcome) :
    LeadsBy .eager setting machine outcome := by
  rcases here with here | early
  · cases first with
    | error error => exact Or.inr ⟨rfl, error, here⟩
    | ok value => exact of_leads here (there value rfl)
  · exact Or.inr early

/-- After some steps the run from a state is the run from the outcome or has failed. -/
theorem run {outcome : Except RuntimeError Machine}
    (here : LeadsBy logic setting machine outcome) :
    ∃ steps, ∀ fuel,
      machine.run setting (steps + fuel) = RunResult.after setting fuel outcome ∨
        logic = .eager ∧ ∃ error, machine.run setting (steps + fuel) = .failed error := by
  rcases here with here | ⟨eager, error, fails⟩
  · obtain ⟨steps, reached⟩ := here.run
    exact ⟨steps, fun fuel => Or.inl (reached fuel)⟩
  · obtain ⟨steps, failed⟩ := fails.run
    exact ⟨steps, fun fuel => Or.inr ⟨eager, error, failed fuel⟩⟩

end LeadsBy

end QueryTemplate
