import QueryTemplate.Compilation.Basic
import QueryTemplate.Proofs.Code.Nodes

set_option autoImplicit false

/- The program of a template, run from the start, ends as the evaluation of the template does. -/

namespace QueryTemplate

/-- How a run ends that follows an evaluation. -/
def RunResult.ofOutcome : Except RuntimeError Builder → RunResult
  | .ok builder => .finished (some builder)
  | .error error => .failed error

theorem generate_eq_ok {template : Template} {env : RuntimeEnvironment} {program : Program}
    (generated : generate template env = .ok program) : program = Template.program template := by
  unfold generate at generated
  split at generated
  · cases generated
  · exact (Except.ok.inj generated).symm

namespace Machine

/-- The last instruction exports the main builder unless a tag has exported one. -/
theorem exported_deliver (machine : Machine) :
    machine.deliver.exported = some (machine.exported.getD machine.main) := by
  unfold deliver
  cases exports : machine.exported with
  | none => rfl
  | some builder => exact exports

theorem captures_deliver (machine : Machine) : machine.deliver.captures = machine.captures := by
  unfold deliver
  cases machine.exported <;> rfl

theorem pc_deliver (machine : Machine) : machine.deliver.pc = machine.pc := by
  unfold deliver
  cases machine.exported <;> rfl

end Machine

namespace Template

/-- The machine after the code of the nodes and the final instruction. -/
theorem programBy_leads (logic : Logic) (setting : Setting) (template : Template)
    (compiled : setting.program = programBy logic template) :
    LeadsBy logic setting Machine.start
      ((Node.listExec setting.surroundings Scene.start template).map fun scene =>
        (Machine.start.resume (Node.listSizeBy logic template + 1) scene).deliver) := by
  have placed : CodeAt setting.program 0 (programBy logic template) := by
    rw [compiled]
    exact ⟨[], List.append_nil _⟩
  obtain ⟨inside, last⟩ := CodeAt.append.mp placed
  rw [Node.length_listCodeBy] at last
  have nodes := Node.listCodeBy_leads setting logic template Machine.start inside
  rw [show Machine.start.scene = Scene.start from rfl] at nodes
  have delivered : LeadsBy logic setting Machine.start
      ((Node.listExec setting.surroundings Scene.start template >>= pure).map fun scene =>
        (Machine.start.resume (Node.listSizeBy logic template + 1) scene).deliver) := by
    apply LeadsBy.bind nodes
    intro scene _
    apply LeadsBy.of_execute (CodeAt.singleton.mp last)
    change Except.ok ((Machine.start.resume _ scene).jumpTo _).deliver = _
    rw [Machine.resume_pc, show Machine.start.pc = 0 from rfl, Nat.zero_add]
    rfl
  rwa [bind_pure] at delivered

theorem program_leads (setting : Setting) (template : Template)
    (compiled : setting.program = program template) :
    Leads setting Machine.start
      ((Node.listExec setting.surroundings Scene.start template).map fun scene =>
        (Machine.start.resume (Node.listSize template + 1) scene).deliver) := by
  rw [← programBy_shortCircuit] at compiled
  rw [← Node.listSizeBy_shortCircuit]
  exact (programBy_leads .shortCircuit setting template compiled).leads

/-- Code of either kind ends as the evaluation does, unless it is eager and fails. -/
theorem runProgram_programBy (logic : Logic) (runtime : RuntimeEnvironment) (strict : Bool)
    (members : Table Json) (template : Template) :
    ∃ steps, ∀ fuel,
      Machine.runProgram runtime strict (steps + fuel) (programBy logic template)
          (.object members) =
        RunResult.ofOutcome (interpret ⟨runtime, strict, members⟩ template) ∨
      logic = .eager ∧ ∃ error,
        Machine.runProgram runtime strict (steps + fuel) (programBy logic template)
          (.object members) = .failed error := by
  obtain ⟨steps, led⟩ :=
    (programBy_leads logic ⟨programBy logic template, runtime, strict, members⟩ template rfl).run
  refine ⟨steps, fun fuel => (led fuel).imp_left fun followed => ?_⟩
  simp only [Machine.runProgram, followed]
  simp only [Setting.surroundings, interpret]
  cases Node.listExec ⟨runtime, strict, members⟩ Scene.start template with
  | error error => rfl
  | ok scene =>
      have ended : (programBy logic template)[Node.listSizeBy logic template + 1]? = none :=
        List.getElem?_eq_none (Nat.le_of_eq (length_programBy logic template))
      have final := @Machine.run_at_end ⟨programBy logic template, runtime, strict, members⟩
        (Machine.start.resume (Node.listSizeBy logic template + 1) scene).deliver
        (by rw [Machine.pc_deliver]; exact ended) fuel
      simp only [Except.map, RunResult.after, final, Machine.exported_deliver]
      rfl

theorem runProgram_eq_interpret (runtime : RuntimeEnvironment) (strict : Bool)
    (members : Table Json) (template : Template) :
    ∃ steps, ∀ fuel,
      Machine.runProgram runtime strict (steps + fuel) (program template) (.object members) =
        RunResult.ofOutcome (interpret ⟨runtime, strict, members⟩ template) := by
  obtain ⟨steps, ended⟩ := runProgram_programBy .shortCircuit runtime strict members template
  rw [programBy_shortCircuit] at ended
  exact ⟨steps, fun fuel => (ended fuel).resolve_right fun early => by cases early.1⟩

/-- However many steps it is given, a run that ends does so as the evaluation does. -/
theorem runProgram_outOfFuel_or_interpret (runtime : RuntimeEnvironment) (strict : Bool)
    (members : Table Json) (template : Template) (fuel : Nat) :
    Machine.runProgram runtime strict fuel (program template) (.object members) = .outOfFuel ∨
      Machine.runProgram runtime strict fuel (program template) (.object members) =
        RunResult.ofOutcome (interpret ⟨runtime, strict, members⟩ template) := by
  by_cases unfinished :
      Machine.runProgram runtime strict fuel (program template) (.object members) = .outOfFuel
  · exact Or.inl unfinished
  · obtain ⟨steps, evaluated⟩ := runProgram_eq_interpret runtime strict members template
    rw [← evaluated fuel, Nat.add_comm]
    exact Or.inr (Machine.run_add unfinished steps).symm

end Template

/-- Running what is generated for a template gives what the evaluation of its tree gives: the same
exported builder or the same error, in any run that is given the steps it takes. -/
theorem runProgram_generate {template : Template} {runtime : RuntimeEnvironment}
    {program : Program} (generated : generate template runtime = .ok program) (strict : Bool)
    (members : Table Json) :
    ∃ steps, ∀ fuel,
      Machine.runProgram runtime strict (steps + fuel) program (.object members) =
        RunResult.ofOutcome (Template.interpret ⟨runtime, strict, members⟩ template) := by
  rw [generate_eq_ok generated]
  exact Template.runProgram_eq_interpret runtime strict members template

theorem runProgram_generate_loop :
    let template : Template := [.loop "id" ⟨7, 9⟩ (.var "ids" ⟨13, 16⟩)
      [.text "?" ⟨19, 20⟩, .output (.var "id" ⟨23, 25⟩) ⟨20, 28⟩] ⟨0, 19⟩]
    ∃ program, generate template {} = .ok program ∧
      ∃ steps, ∀ fuel,
        Machine.runProgram {} true (steps + fuel) program
            (.object [("ids", .array [.bool true, .null])]) =
          .finished (some {
            statement := "?$1?$2".toList
            parameters := [.bool true, .null]
            placeholders := [1, 4] }) := by
  intro template
  have generated : generate template {} = .ok (Template.program template) := rfl
  exact ⟨_, generated, runProgram_generate generated true [("ids", .array [.bool true, .null])]⟩

end QueryTemplate
