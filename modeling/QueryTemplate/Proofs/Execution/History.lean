import QueryTemplate.Proofs.Code.Runs
import QueryTemplate.Proofs.Execution.Successes

set_option autoImplicit false

/- The past of a run: the states that it has gone through, and what it has written in them. Only few
instructions touch builders; the others keep all of them. -/

namespace QueryTemplate

/-- Instructions that change builders. -/
def Instr.builds : Instr → Bool
  | .text _ => true
  | .emit => true
  | .capture => true
  | .callTag .. => true
  | .deliver => true
  | _ => false

namespace Machine

/-- The states from which a run takes its steps, in order. -/
def passed (setting : Setting) : (fuel : Nat) → Machine → List Machine
  | 0, _ => []
  | fuel + 1, machine =>
    match machine.step? setting with
    | some (.ok next) => machine :: passed setting fuel next
    | _ => []

theorem step_of_passed {setting : Setting} {fuel : Nat} {first machine : Machine}
    (within : machine ∈ first.passed setting fuel) :
    ∃ next, machine.step? setting = some (.ok next) := by
  induction fuel generalizing first with
  | zero => cases within
  | succ fuel ih =>
      unfold passed at within
      split at within
      next next stepped =>
        rcases List.mem_cons.mp within with rfl | within
        · exact ⟨next, stepped⟩
        · exact ih within
      next => cases within

/-- A run that reaches a state has taken no step, or one step and then a shorter run. -/
theorem passed_cases {setting : Setting} {steps : Nat} {machine final : Machine}
    (reached : machine.advance setting steps = .ok final) :
    (machine.passed setting steps = [] ∧ final = machine) ∨
      ∃ fewer next, fewer < steps ∧ machine.step? setting = some (.ok next) ∧
        next.advance setting fewer = .ok final ∧
        machine.passed setting steps = machine :: next.passed setting fewer := by
  cases steps with
  | zero =>
      cases reached
      exact Or.inl ⟨rfl, rfl⟩
  | succ fewer =>
      simp only [advance] at reached
      simp only [passed]
      cases stepped : machine.step? setting with
      | none =>
          rw [stepped] at reached
          cases reached
          exact Or.inl ⟨rfl, rfl⟩
      | some result =>
          rw [stepped] at reached
          cases result with
          | error error => cases reached
          | ok next => exact Or.inr ⟨fewer, next, Nat.lt_succ_self _, rfl, reached, rfl⟩

theorem passed_add {setting : Setting} {steps : Nat} {machine next : Machine}
    (reached : machine.advance setting steps = .ok next) (more : Nat) :
    machine.passed setting (steps + more) =
      machine.passed setting steps ++ next.passed setting more := by
  induction steps generalizing machine with
  | zero =>
      cases reached
      rw [Nat.zero_add]
      rfl
  | succ steps ih =>
      rw [Nat.succ_add]
      simp only [advance, passed] at reached ⊢
      cases stepped : machine.step? setting with
      | none =>
          rw [stepped] at reached
          cases reached
          cases more <;> simp [passed, stepped]
      | some result =>
          cases result with
          | error error =>
              rw [stepped] at reached
              cases reached
          | ok after =>
              rw [stepped] at reached
              simp only [ih reached, List.cons_append]

/-- What each step keeps, of the states passed and the state reached, is kept by a run. -/
theorem passed_keeps {setting : Setting} {holds : List Machine → Machine → Prop}
    (keeps : ∀ past machine next, holds past machine → machine.step? setting = some (.ok next) →
      holds (past ++ [machine]) next)
    {fuel : Nat} {past : List Machine} {machine final : Machine} (start : holds past machine)
    (reached : machine.advance setting fuel = .ok final) :
    holds (past ++ machine.passed setting fuel) final := by
  induction fuel generalizing past machine with
  | zero =>
      cases reached
      rwa [passed, List.append_nil]
  | succ fuel ih =>
      unfold advance at reached
      unfold passed
      split at reached
      next ended =>
        cases reached
        rwa [ended, List.append_nil]
      next => cases reached
      next next stepped =>
        rw [stepped, List.append_cons]
        exact ih (keeps past machine next start stepped) reached

/-- A run that finishes has reached a state at the end of the program. -/
theorem run_finished {setting : Setting} {fuel : Nat} {machine : Machine}
    {exported : Option Builder} (finished : machine.run setting fuel = .finished exported) :
    ∃ final, machine.advance setting fuel = .ok final ∧ final.step? setting = none ∧
      final.exported = exported := by
  have after := run_advance setting fuel 0 machine
  rw [Nat.add_zero, finished] at after
  cases reached : machine.advance setting fuel with
  | error error =>
      rw [reached] at after
      cases after
  | ok final =>
      rw [reached] at after
      simp only [RunResult.after, run] at after
      split at after
      next ended => exact ⟨final, rfl, ended, (RunResult.finished.inj after).symm⟩
      next => cases after

/-- What the next step does to the builder that receives output, unless it calls a tag. -/
def write (setting : Setting) (output : Builder) (machine : Machine) : Builder :=
  match setting.program[machine.pc]? with
  | some (.text content) => output.push content.toList
  | some .emit =>
    match machine.stack with
    | .builder builder :: _ => output.append builder
    | .data value :: _ => output.bind value
    | [] => output
  | _ => output

/-- All builders that text or parameters can go into, or that have been exported. -/
def builders (machine : Machine) : Builder × List Builder × Option Builder :=
  (machine.main, machine.captures, machine.exported)

theorem builders_assign (machine : Machine) (name : String) (slot : Slot) :
    (machine.assign name slot).builders = machine.builders := by
  unfold assign
  cases machine.frames <;> rfl

variable {setting : Setting} {machine next : Machine} {instr : Instr}

theorem builders_succeeds (keeps : instr.builds = false)
    (done : machine.Succeeds setting instr next) : next.builders = machine.builders := by
  cases done with
  | text | splice | bind | capture | callTag | deliver => cases keeps
  | assign => exact builders_assign _ _ _
  | bindItem => exact (builders_assign _ _ _).trans (builders_assign _ _ _)
  | _ => rfl

theorem exported_setOutput (machine : Machine) (builder : Builder) :
    (machine.setOutput builder).exported = machine.exported := by
  unfold setOutput
  cases machine.captures <;> rfl

theorem main_setOutput (machine : Machine) (change : Builder → Builder)
    (closed : (machine.setOutput (change machine.output)).captures = []) :
    machine.captures = [] ∧
      (machine.setOutput (change machine.output)).main = change machine.main := by
  unfold setOutput output at closed ⊢
  cases shape : machine.captures with
  | nil => exact ⟨rfl, rfl⟩
  | cons capture captures =>
      rw [shape] at closed
      cases closed

/-- An instruction that calls no tag exports nothing but in the end, and what it writes while no
capture is open goes into the main builder. -/
theorem output_of_step (fetched : setting.program[machine.pc]? = some instr)
    (plain : ∀ name argc kwargs hasBody, instr ≠ .callTag name argc kwargs hasBody)
    (open_ : instr ≠ .deliver) (stepped : machine.step? setting = some (.ok next)) :
    next.exported = machine.exported ∧
      (next.captures = [] →
        machine.captures = [] ∧ next.main = machine.write setting machine.main) := by
  have done := succeeds_of_fetched fetched stepped
  cases kept : instr.builds with
  | false =>
      have same := builders_succeeds kept done
      simp only [builders, Prod.mk.injEq] at same
      obtain ⟨main, captures, exported⟩ := same
      refine ⟨exported, fun closed => ⟨captures.symm.trans closed, main.trans ?_⟩⟩
      unfold write
      cases instr with
      | text | emit => cases kept
      | _ => simp only [fetched]; rfl
  | true =>
      cases done with
      | text content =>
          refine ⟨exported_setOutput _ _, fun closed => ?_⟩
          have into := main_setOutput _ (·.push content.toList) closed
          simp only [write, fetched]
          exact into
      | @splice builder top =>
          obtain ⟨stack, shape⟩ := List.head?_eq_some_iff.mp top
          refine ⟨exported_setOutput _ _, fun closed => ?_⟩
          have into := main_setOutput _ (·.append builder) closed
          simp only [write, fetched, show machine.stack = _ from shape]
          exact into
      | @bind value top =>
          obtain ⟨stack, shape⟩ := List.head?_eq_some_iff.mp top
          refine ⟨exported_setOutput _ _, fun closed => ?_⟩
          have into := main_setOutput _ (·.bind value) closed
          simp only [write, fetched, show machine.stack = _ from shape]
          exact into
      | capture => exact ⟨rfl, fun closed => nomatch closed⟩
      | callTag => exact absurd rfl (plain _ _ _ _)
      | deliver => exact absurd rfl open_
      | _ => cases kept

end Machine

end QueryTemplate
