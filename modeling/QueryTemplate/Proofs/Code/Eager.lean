import QueryTemplate.Catalog.Filters
import QueryTemplate.Proofs.Code.Programs

set_option autoImplicit false

/- What it matters that the logical operators skip operands: to failures only. Whatever an eager
program exports, the program that is generated exports too. -/

namespace QueryTemplate

theorem RunResult.ofOutcome_ne_outOfFuel (outcome : Except RuntimeError Builder) :
    ofOutcome outcome ≠ .outOfFuel := by
  cases outcome <;> simp [ofOutcome]

theorem RunResult.eq_ok_of_ofOutcome {outcome : Except RuntimeError Builder} {builder : Builder}
    (finished : ofOutcome outcome = .finished (some builder)) : outcome = .ok builder := by
  cases outcome with
  | error error => cases finished
  | ok value =>
      cases finished
      rfl

namespace Template

/-- What code of either kind exports is the meaning of the template. -/
theorem interpret_of_finished {template : Template} {runtime : RuntimeEnvironment} {strict : Bool}
    {members : Table Json} {logic : Logic} {fuel : Nat} {builder : Builder}
    (finished : Machine.runProgram runtime strict fuel (programBy logic template)
      (.object members) = .finished (some builder)) :
    interpret ⟨runtime, strict, members⟩ template = .ok builder := by
  obtain ⟨steps, ended⟩ := runProgram_programBy logic runtime strict members template
  have longer : Machine.runProgram runtime strict (steps + fuel) (programBy logic template)
      (.object members) = .finished (some builder) := by
    rw [Nat.add_comm, ← finished]
    apply Machine.run_add
    change Machine.runProgram runtime strict fuel _ (.object members) ≠ _
    simp [finished]
  rcases ended fuel with same | ⟨-, error, failed⟩
  · exact RunResult.eq_ok_of_ofOutcome (same.symm.trans longer)
  · rw [longer] at failed
    cases failed

end Template

/-- Compile the logical operators so that both operands are always evaluated. Given enough steps the
run then ends as that of the generated program does, or else it fails; and whatever builder it
exports, the generated program exports the same. -/
theorem Template.eager_run_agrees {template : Template} {env : RuntimeEnvironment}
    {program : Program} (generated : generate template env = .ok program)
    (runtime : RuntimeEnvironment) (strict : Bool) (members : Table Json) :
    (∃ steps, ∀ fuel,
      Machine.runProgram runtime strict (steps + fuel) program (.object members) ≠ .outOfFuel ∧
        (Machine.runProgram runtime strict (steps + fuel) (programBy .eager template)
              (.object members) =
            Machine.runProgram runtime strict (steps + fuel) program (.object members) ∨
          ∃ error,
            Machine.runProgram runtime strict (steps + fuel) (programBy .eager template)
              (.object members) = .failed error)) ∧
      ∀ fuel builder,
        Machine.runProgram runtime strict fuel (programBy .eager template) (.object members) =
            .finished (some builder) →
          ∃ steps, ∀ more,
            Machine.runProgram runtime strict (steps + more) program (.object members) =
              .finished (some builder) := by
  rw [generate_eq_ok generated]
  obtain ⟨steps, ran⟩ := runProgram_eq_interpret runtime strict members template
  refine ⟨?_, fun fuel builder finished => ⟨steps, fun more => ?_⟩⟩
  · obtain ⟨others, eager⟩ := runProgram_programBy .eager runtime strict members template
    refine ⟨steps + others, fun fuel => ?_⟩
    have here := ran (others + fuel)
    have there := eager (steps + fuel)
    rw [← Nat.add_assoc] at here
    rw [← Nat.add_assoc, Nat.add_comm others] at there
    rw [here]
    exact ⟨RunResult.ofOutcome_ne_outOfFuel _, there.imp_right And.right⟩
  · rw [ran more, interpret_of_finished finished]
    rfl

/-- Operators inside an argument, a condition and the value that a loop runs through. With a user
the eager program exports what the generated one does; without one it fails at an operand that the
generated program skips. -/
theorem Template.eager_run_agrees_guarded :
    let user : Expr := .var "user" ⟨0, 4⟩
    let required (target argument : Expr) : Expr :=
      .filter false target "required" ⟨0, 8⟩ [argument] ⟨0, 8⟩
    let hint : Expr :=
      .binary .or (.attr user "hint" ⟨0, 9⟩) (.literal (.string "id") ⟨0, 4⟩) ⟨0, 9⟩
    let guard : Expr := .binary .and user (required (.attr user "id" ⟨0, 7⟩) hint) ⟨0, 9⟩
    let template : Template :=
      [.loop "id" ⟨0, 2⟩ (.binary .or (.var "ids" ⟨0, 3⟩) user ⟨0, 8⟩)
        [.branch [(guard, [.text "id = " ⟨0, 5⟩, .output guard ⟨0, 5⟩])] none ⟨0, 9⟩] ⟨0, 9⟩]
    let runtime : RuntimeEnvironment :=
      { filters := [(Catalog.Required.name, ⟨false, Catalog.Required.transform⟩)] }
    let known : Table Json :=
      [("ids", .array [.null]), ("user", .object [("id", .bool true)])]
    let unknown : Table Json := [("ids", .array [.null]), ("user", .null)]
    let builder : Builder :=
      { statement := "id = $1".toList, parameters := [.bool true], placeholders := [5] }
    ∃ program, generate template runtime = .ok program ∧
      Machine.runProgram runtime true 99 (programBy .eager template) (.object known) =
        .finished (some builder) ∧
      (∃ steps, ∀ more, Machine.runProgram runtime true (steps + more) program (.object known) =
        .finished (some builder)) ∧
      Machine.runProgram runtime true 99 (programBy .eager template) (.object unknown) =
        .failed (.extension (.failed "required" "id")) ∧
      Machine.runProgram runtime true 99 program (.object unknown) = .finished (some .empty) := by
  intro user required hint guard template runtime known unknown builder
  have generated : generate template runtime = .ok (program template) := rfl
  have eager : programBy .eager template =
      [.load "ids", .load "user", .binary .or, .iterStart, .iterNext "id" 28, .load "user",
        .load "user", .attr "id", .load "user", .attr "hint", .const (.string "id"), .binary .or,
        .filter false "required" 1, .binary .and, .jumpIfFalse 27, .text "id = ", .load "user",
        .load "user", .attr "id", .load "user", .attr "hint", .const (.string "id"), .binary .or,
        .filter false "required" 1, .binary .and, .emit, .jump 27, .jump 4, .deliver] := rfl
  have jumping : program template =
      [.load "ids", .jumpIfTrueOrPop 3, .load "user", .iterStart, .iterNext "id" 28, .load "user",
        .jumpIfFalseOrPop 14, .load "user", .attr "id", .load "user", .attr "hint",
        .jumpIfTrueOrPop 13, .const (.string "id"), .filter false "required" 1, .jumpIfFalse 27,
        .text "id = ", .load "user", .jumpIfFalseOrPop 25, .load "user", .attr "id", .load "user",
        .attr "hint", .jumpIfTrueOrPop 24, .const (.string "id"), .filter false "required" 1,
        .emit, .jump 27, .jump 4, .deliver] := rfl
  have finished : Machine.runProgram runtime true 99 (programBy .eager template)
      (.object known) = .finished (some builder) := by
    rw [eager]
    rfl
  refine ⟨_, generated, finished, ?_, ?_, ?_⟩
  · exact (eager_run_agrees generated runtime true known).2 99 builder finished
  · rw [eager]
    rfl
  · rw [jumping]
    rfl

end QueryTemplate
