import QueryTemplate.Proofs.Code.Runs
import QueryTemplate.Proofs.Execution.Failures

set_option autoImplicit false

/- A strict execution beside one that takes undefined variables for null. Nothing but a load looks
at the mode, so both go through the same states until the strict one loads a variable that is bound
nowhere. -/

namespace QueryTemplate

namespace Machine

/-- The next step loads a variable that is bound nowhere. -/
structure Misses (setting : Setting) (machine : Machine) (name : String) : Prop where
  loads : setting.program[machine.pc]? = some (.load name)
  unbound : machine.lookup setting.data name = none

/-- An error in a run is the error of one of its steps. -/
theorem step_of_advance_eq_error {setting : Setting} {steps : Nat} {first : Machine}
    {error : RuntimeError} (failed : first.advance setting steps = .error error) :
    ∃ earlier machine, earlier < steps ∧ first.advance setting earlier = .ok machine ∧
      machine.step? setting = some (.error error) := by
  induction steps generalizing first with
  | zero => cases failed
  | succ steps ih =>
      rw [advance] at failed
      split at failed
      next => cases failed
      next stepped =>
        cases failed
        exact ⟨0, first, Nat.succ_pos _, rfl, stepped⟩
      next next stepped =>
        obtain ⟨earlier, machine, before, reached, fails⟩ := ih failed
        refine ⟨earlier + 1, machine, Nat.succ_lt_succ before, ?_, fails⟩
        rw [advance, stepped]
        exact reached

variable {setting : Setting}

/-- Only a strict run fails for an undefined variable. -/
theorem strict_of_step {machine : Machine} {name : String}
    (failed : machine.step? setting = some (.error (.undefinedVariable name))) :
    setting.strict = true := by
  cases fetched : setting.program[machine.pc]? with
  | none =>
      rw [step?_at_end fetched] at failed
      cases failed
  | some instr =>
      rw [step?_of_fetched fetched, Option.some.injEq] at failed
      cases fails_execute failed with
      | misuse misused => cases isMisuse_of_misuse? misused
      | undefined strict _ => exact strict

variable (program : Program) (runtime : RuntimeEnvironment) (members : Table Json)

/-- Nothing but a load that finds no value looks at the mode. -/
theorem step?_strict (machine : Machine) :
    machine.step? ⟨program, runtime, true, members⟩ =
        machine.step? ⟨program, runtime, false, members⟩ ∨
      ∃ name, machine.Misses ⟨program, runtime, true, members⟩ name ∧
        machine.step? ⟨program, runtime, true, members⟩ =
          some (.error (.undefinedVariable name)) := by
  cases fetched : program[machine.pc]? with
  | none => exact Or.inl ((step?_at_end fetched).trans (step?_at_end fetched).symm)
  | some instr =>
      rw [step?_of_fetched fetched, step?_of_fetched fetched]
      cases instr with
      | load name =>
          cases found : machine.lookup members name with
          | some slot =>
              have here : (machine.jumpTo (machine.pc + 1)).lookup members name = some slot := found
              simp only [execute, load, here, true_or]
          | none =>
              have here : (machine.jumpTo (machine.pc + 1)).lookup members name = none := found
              refine Or.inr ⟨name, ⟨fetched, found⟩, ?_⟩
              simp only [execute, load, here, ↓reduceIte]
      | _ => exact Or.inl rfl

/-- The strict run goes with the other one up to the load that it fails at. -/
theorem advance_strict (first : Machine) (steps : Nat) :
    first.advance ⟨program, runtime, true, members⟩ steps =
        first.advance ⟨program, runtime, false, members⟩ steps ∨
      ∃ earlier machine name, earlier < steps ∧
        (∀ before ≤ earlier, first.advance ⟨program, runtime, true, members⟩ before =
          first.advance ⟨program, runtime, false, members⟩ before) ∧
        first.advance ⟨program, runtime, true, members⟩ earlier = .ok machine ∧
        machine.Misses ⟨program, runtime, true, members⟩ name ∧
        first.advance ⟨program, runtime, true, members⟩ steps =
          .error (.undefinedVariable name) := by
  induction steps generalizing first with
  | zero => exact Or.inl rfl
  | succ steps ih =>
      -- the first step is the same in both modes, or it is the load that the strict run fails at
      rcases step?_strict program runtime members first with same | ⟨name, misses, fails⟩
      · cases stepped : first.step? ⟨program, runtime, false, members⟩ with
        | none =>
            rw [stepped] at same
            exact Or.inl (by simp only [advance, same, stepped])
        | some result =>
            rw [stepped] at same
            cases result with
            | error error => exact Or.inl (by simp only [advance, same, stepped])
            | ok next =>
                simp only [advance, same, stepped]
                rcases ih next with equal | ⟨earlier, machine, name, within, alike, reached, rest⟩
                · exact Or.inl equal
                · refine Or.inr ⟨earlier + 1, machine, name, Nat.succ_lt_succ within, ?_, ?_, rest⟩
                  · intro before inside
                    cases before with
                    | zero => rfl
                    | succ before =>
                        simp only [advance, same, stepped]
                        exact alike before (Nat.le_of_succ_le_succ inside)
                  · simp only [advance, same]
                    exact reached
      · refine Or.inr ⟨0, first, name, Nat.succ_pos steps, ?_, rfl, misses, ?_⟩
        · intro before inside
          rw [Nat.le_zero.mp inside]
          rfl
        · simp only [advance, fails]

/-- The result of a run, from the state that is reached when its fuel is used up. -/
theorem run_eq_after (setting : Setting) (fuel : Nat) (machine : Machine) :
    run setting fuel machine = RunResult.after setting 0 (advance setting fuel machine) :=
  run_advance setting fuel 0 machine

/-- At the end of the fuel it does not matter what a step would lead to. -/
theorem after_strict (outcome : Except RuntimeError Machine) :
    RunResult.after ⟨program, runtime, true, members⟩ 0 outcome =
      RunResult.after ⟨program, runtime, false, members⟩ 0 outcome := by
  cases outcome with
  | error error => rfl
  | ok machine =>
      simp only [RunResult.after, run, step?]
      cases program[machine.pc]? <;> rfl

/-- A strict run goes through the states of the run that takes undefined variables for null, up to a
load of a variable that is bound nowhere, at which it fails; the other run never fails for such a
variable. Unless it fails so, a strict run has the result of the other, whatever the limit. -/
theorem strict_only_fails :
    let strict : Setting := ⟨program, runtime, true, members⟩
    let lenient : Setting := ⟨program, runtime, false, members⟩
    (∀ steps, start.advance strict steps = start.advance lenient steps ∨
      ∃ earlier machine name, earlier < steps ∧
        (∀ before ≤ earlier, start.advance strict before = start.advance lenient before) ∧
        start.advance strict earlier = .ok machine ∧ machine.Misses strict name ∧
        start.advance strict steps = .error (.undefinedVariable name)) ∧
    (∀ steps name, start.advance lenient steps ≠ .error (.undefinedVariable name)) ∧
    (∀ fuel, (∀ name, runProgram runtime true fuel program (.object members) ≠
        .failed (.undefinedVariable name)) →
      runProgram runtime true fuel program (.object members) =
        runProgram runtime false fuel program (.object members)) ∧
    ∀ fuel exported, runProgram runtime true fuel program (.object members) = .finished exported →
      runProgram runtime false fuel program (.object members) = .finished exported := by
  intro strict lenient
  have results (fuel : Nat) (defined : ∀ name, run strict fuel start ≠
      .failed (.undefinedVariable name)) : run strict fuel start = run lenient fuel start := by
    rcases advance_strict program runtime members start fuel with
      same | ⟨-, -, name, -, -, -, -, fails⟩
    · rw [run_eq_after, run_eq_after, same]
      exact after_strict program runtime members _
    · refine absurd ?_ (defined name)
      rw [run_eq_after, fails]
      rfl
  refine ⟨advance_strict program runtime members start, fun steps name failed => ?_, results,
    fun fuel exported finished => ?_⟩
  · obtain ⟨-, machine, -, -, fails⟩ := step_of_advance_eq_error failed
    cases strict_of_step fails
  · have same := results fuel fun name failed => by
      cases finished.symm.trans failed
    exact same.symm.trans finished

/-- A loop in which all variables are bound, which the strict run finishes like the other one; and
the same loop with a variable that is not, at which the strict run fails in its first turn. -/
theorem strict_only_fails_in_loop :
    let program : Program :=
      [.load "xs", .iterStart, .iterNext "x" 6, .load "y", .emit, .jump 2, .deliver]
    let bound : Table Json := [("xs", .array [.null]), ("y", .bool true)]
    let unbound : Table Json := [("xs", .array [.null])]
    let builder : Builder :=
      { statement := "$1".toList, parameters := [.bool true], placeholders := [0] }
    runProgram {} true 20 program (.object bound) = .finished (some builder) ∧
      runProgram {} false 20 program (.object bound) = .finished (some builder) ∧
      start.advance ⟨program, {}, true, unbound⟩ 3 = start.advance ⟨program, {}, false, unbound⟩ 3 ∧
      start.advance ⟨program, {}, true, unbound⟩ 4 = .error (.undefinedVariable "y") := by
  intro program bound unbound builder
  have finished : runProgram {} true 20 program (.object bound) = .finished (some builder) := rfl
  refine ⟨finished, (strict_only_fails program {} bound).2.2.2 20 _ finished, ?_, rfl⟩
  rcases (strict_only_fails program {} unbound).1 3 with same | ⟨-, -, name, -, -, -, -, fails⟩
  · exact same
  · have reached : (start.advance ⟨program, {}, true, unbound⟩ 3).toOption.isSome = true := rfl
    rw [fails] at reached
    cases reached

end Machine

end QueryTemplate
