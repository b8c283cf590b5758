import QueryTemplate.Proofs.Code.Runs
import QueryTemplate.Proofs.Compilation.Loading
import QueryTemplate.Proofs.Execution.Disclosed
import QueryTemplate.Proofs.Reading.Chunks

set_option autoImplicit false

/- What of the data an execution depends on. The machine reads data only where it loads a variable,
and the built-in tags do not look variables up. So of two data objects that agree on the variables
that a program loads, neither run can tell which it was given. -/

namespace QueryTemplate

/-- A tag that does not look variables up. -/
def TagRunner.Blind (run : TagRunner) : Prop :=
  ∀ (context : TagContext) (lookup : String → Option Json),
    run { context with lookup } = run context

theorem TagRunner.blind_of_mem_catalog {name : String} {run : TagRunner}
    (listed : .tagRunner name run ∈ catalog) : run.Blind := by
  rcases tagRunner_mem_catalog.mp listed with ⟨-, rfl⟩ | ⟨-, rfl⟩
  · exact fun _ _ => rfl
  · exact fun _ _ => rfl

namespace Machine

/-- Runs in settings in which each step is the same are the same. -/
theorem advance_of_step? {first second : Setting}
    (alike : ∀ machine : Machine, machine.step? first = machine.step? second) (steps : Nat)
    (machine : Machine) : machine.advance first steps = machine.advance second steps := by
  induction steps generalizing machine with
  | zero => rfl
  | succ steps ih =>
      simp only [advance, alike machine]
      split
      · rfl
      · rfl
      · exact ih _

theorem run_of_step? {first second : Setting}
    (alike : ∀ machine : Machine, machine.step? first = machine.step? second) (fuel : Nat)
    (machine : Machine) : machine.run first fuel = machine.run second fuel := by
  induction fuel generalizing machine with
  | zero => simp only [run, alike machine]
  | succ fuel ih =>
      simp only [run_succ, alike machine]
      split
      · rfl
      · rfl
      · exact ih _

variable {program : Program} {runtime : RuntimeEnvironment} {strict : Bool}
  {first second : Table Json}

theorem callTag_of_blind
    (blind : ∀ name run, Table.get? runtime.tags name = some run → run.Blind)
    (machine : Machine) (name : String) (argc : Nat) (kwargs : List String) (hasBody : Bool) :
    machine.callTag ⟨program, runtime, strict, first⟩ name argc kwargs hasBody =
      machine.callTag ⟨program, runtime, strict, second⟩ name argc kwargs hasBody := by
  unfold callTag
  refine bind_congr fun ⟨values, below⟩ => bind_congr fun ⟨args, beneath⟩ =>
    bind_congr fun ⟨body, rest⟩ => ?_
  dsimp only
  cases found : Table.get? runtime.tags name with
  | none => rfl
  | some run =>
      -- what the two runners are handed differs in the look-up of variables alone
      have same : run (rest.context first args (Table.ofList (kwargs.zip values)) body) =
          run (rest.context second args (Table.ofList (kwargs.zip values)) body) :=
        blind name run found (rest.context second args (Table.ofList (kwargs.zip values)) body)
          fun known => (rest.lookup first known).map Slot.toJson
      simp only [same]

theorem step?_of_agree
    (blind : ∀ name run, Table.get? runtime.tags name = some run → run.Blind)
    (agree : ∀ name, .load name ∈ program → Table.get? first name = Table.get? second name)
    (machine : Machine) :
    machine.step? ⟨program, runtime, strict, first⟩ =
      machine.step? ⟨program, runtime, strict, second⟩ := by
  cases fetched : program[machine.pc]? with
  | none => exact (step?_at_end fetched).trans (step?_at_end fetched).symm
  | some instr =>
      rw [step?_of_fetched fetched, step?_of_fetched fetched]
      cases instr with
      | load name =>
          have same := agree name (List.mem_of_getElem? fetched)
          simp only [execute, load, lookup, same]
      | callTag name argc kwargs hasBody =>
          exact congrArg some (callTag_of_blind blind _ name argc kwargs hasBody)
      | _ => rfl

end Machine

namespace Environments

/-- Of two data objects that agree on every variable that a program loads, a run with built-in
extensions goes through the same states and has the same result, in either mode and whatever the
limit. -/
theorem run_reads_loads {extensions : List Extension}
    (builtIn : ∀ extension ∈ extensions, extension ∈ catalog) {envs : Environments}
    (loads : ofExtensions extensions = .ok envs) {program : Program} {first second : Table Json}
    (agree : ∀ name, .load name ∈ program → Table.get? first name = Table.get? second name)
    (strict : Bool) :
    (∀ steps, Machine.start.advance ⟨program, envs.runtime, strict, first⟩ steps =
      Machine.start.advance ⟨program, envs.runtime, strict, second⟩ steps) ∧
    ∀ fuel, Machine.runProgram envs.runtime strict fuel program (.object first) =
      Machine.runProgram envs.runtime strict fuel program (.object second) := by
  have blind (name : String) (run : TagRunner)
      (found : Table.get? envs.runtime.tags name = some run) : run.Blind :=
    TagRunner.blind_of_mem_catalog (builtIn _ (tags_ofExtensions loads found))
  have alike (machine : Machine) :
      machine.step? ⟨program, envs.runtime, strict, first⟩ =
        machine.step? ⟨program, envs.runtime, strict, second⟩ :=
    Machine.step?_of_agree blind agree machine
  exact ⟨fun steps => Machine.advance_of_step? alike steps Machine.start,
    fun fuel => Machine.run_of_step? alike fuel Machine.start⟩

/-- A request in a loop. Of the data only `ids` is loaded; the member `secret` is not, although an
attribute and the request have its name. -/
theorem run_reads_loads_homonyms :
    let program : Program :=
      [.load "ids", .iterStart, .iterNext "id" 10, .capture, .load "id", .attr "secret", .emit,
        .const (.string "secret"), .callTag "req" 1 [] true, .jump 2, .deliver]
    let ids := Json.array [.object [("secret", .bool true)]]
    let first := [("ids", ids), ("secret", .bool false)]
    let second := [("ids", ids)]
    Table.get? first "secret" ≠ Table.get? second "secret" ∧
      (∀ name, .load name ∈ program → Table.get? first name = Table.get? second name) ∧
      ∃ envs, ofExtensions catalog = .ok envs ∧
        Machine.runProgram envs.runtime true 40 program (.object first) =
          Machine.runProgram envs.runtime true 40 program (.object second) ∧
        (Machine.runProgram envs.runtime true 40 program (.object second)).exportedName? =
          some "secret" := by
  intro program ids first second
  have agree (name : String) (loaded : .load name ∈ program) :
      Table.get? first name = Table.get? second name := by
    simp only [program, List.mem_cons, Instr.load.injEq, reduceCtorEq, List.not_mem_nil, or_false,
      false_or] at loaded
    rcases loaded with rfl | rfl <;> rfl
  have runs : (ofExtensions catalog).toOption.any (fun envs =>
      (Machine.runProgram envs.runtime true 40 program (.object second)).exportedName? ==
        some "secret") = true := by
    decide +kernel
  obtain ⟨envs, loads, runs⟩ := (Option.any_eq_true ..).mp runs
  have loads := eq_ok_iff_toOption.mpr loads
  refine ⟨by simp [first, second, Table.get?_cons], agree, envs, loads, ?_, beq_iff_eq.mp runs⟩
  exact (run_reads_loads (fun _ listed => listed) loads agree true).2 40

end Environments

end QueryTemplate
