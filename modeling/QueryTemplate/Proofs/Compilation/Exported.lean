import QueryTemplate.Proofs.Compilation.Safety
import QueryTemplate.Proofs.Execution.Disclosed
import QueryTemplate.Proofs.Execution.Requests

set_option autoImplicit false

/- Which builder a template exports. With the built-in extensions it is that of the last completed
request marked with `main`, or else of the first request, or else all that the template wrote. -/

namespace QueryTemplate

open Machine (Undelivered passed requests written)

/-- The last instruction has not been executed yet, or the run is at its end. -/
def Machine.Chronicled (setting : Setting) (past : List Machine) (machine : Machine) : Prop :=
  Undelivered setting past machine ∨
    ∃ before last, past = before ++ [last] ∧ Undelivered setting before last ∧
      setting.program[last.pc]? = some .deliver ∧
      machine = (last.jumpTo (last.pc + 1)).deliver ∧ machine.step? setting = none

section Runs

variable {setting : Setting} {template : Template}

theorem Template.step?_after_program (compiled : setting.program = program template)
    {machine : Machine} (beyond : machine.pc = Node.listSize template + 1) :
    machine.step? setting = none := by
  apply Machine.step?_at_end
  rw [compiled, beyond]
  exact List.getElem?_eq_none (Nat.le_of_eq (length_program template))

theorem Template.chronicled_step (compiled : setting.program = program template)
    (builtIn : setting.runtime.BuiltIn) (past : List Machine) (machine next : Machine)
    (chronicled : machine.Chronicled setting past)
    (stepped : machine.step? setting = some (.ok next)) :
    next.Chronicled setting (past ++ [machine]) := by
  rcases chronicled with undelivered | ⟨_, _, _, _, _, _, ended⟩
  · cases fetched : setting.program[machine.pc]? with
    | none =>
        rw [Machine.step?_at_end fetched] at stepped
        cases stepped
    | some instr =>
        by_cases last : instr = .deliver
        · subst last
          rw [Machine.step?_of_fetched fetched] at stepped
          cases stepped
          refine Or.inr ⟨past, machine, rfl, undelivered, fetched, rfl,
            step?_after_program compiled ?_⟩
          rw [compiled] at fetched
          rw [Machine.pc_deliver]
          exact congrArg (· + 1) (deliver_of_program fetched)
        · exact Or.inl (undelivered.step builtIn fetched last stepped)
  · rw [ended] at stepped
    cases stepped

/-- All captures are closed in the end, and something has been exported. -/
theorem Template.final_machine (compiled : setting.program = program template) {fuel : Nat}
    {final : Machine} (reached : Machine.start.advance setting fuel = .ok final)
    (ended : final.step? setting = none) : final.captures = [] ∧ final.exported.isSome := by
  have leads := program_leads setting template compiled
  cases ran : Node.listExec setting.surroundings Scene.start template with
  | error error =>
      rw [ran] at leads
      cases leads.unique (fun _ absent => nomatch absent) reached ended
  | ok scene =>
      rw [ran] at leads
      have settled : (Machine.start.resume (Node.listSize template + 1) scene).deliver.step?
          setting = none := by
        apply step?_after_program compiled
        rw [Machine.pc_deliver]
        rfl
      have last := leads.unique (by rintro _ ⟨⟩; exact settled) reached ended
      cases last
      rw [Machine.captures_deliver, Machine.exported_deliver]
      exact ⟨rfl, rfl⟩

/-- The last instruction exports the main builder if nothing has been exported before. -/
theorem Machine.exported_of_chronicled {past : List Machine} {machine : Machine}
    (chronicled : machine.Chronicled setting past) (closed : machine.captures = [])
    (exports : machine.exported.isSome) :
    machine.exported = some (((Request.chosen? (requests setting past)).map Request.builder).getD
      (written setting past)) := by
  rcases chronicled with undelivered | ⟨before, last, rfl, undelivered, fetched, rfl, -⟩
  · rw [undelivered.exported] at exports ⊢
    obtain ⟨builder, chosen⟩ := Option.isSome_iff_exists.mp exports
    rw [chosen, Option.getD_some]
  · have same : requests setting (before ++ [last]) = requests setting before := by
      rw [Machine.requests_concat, Machine.request?_eq_none fetched fun _ _ _ _ => nofun]
      exact List.append_nil _
    have silent : written setting (before ++ [last]) = written setting before := by
      rw [Machine.written_concat]
      simp only [Machine.write, fetched]
    rw [Machine.captures_deliver] at closed
    rw [Machine.exported_deliver, same, silent]
    change some (last.exported.getD last.main) = _
    rw [undelivered.exported]
    cases chosen : Request.chosen? (requests setting before) with
    | some request => rfl
    | none => rw [undelivered.main (Request.chosen?_eq_none.mp chosen) closed]

end Runs

namespace Environments

theorem builtIn_ofExtensions {extensions : List Extension}
    (builtIn : ∀ extension ∈ extensions, extension ∈ catalog) {envs : Environments}
    (loads : ofExtensions extensions = .ok envs) : envs.runtime.BuiltIn :=
  fun _ _ found => builtIn _ (tags_ofExtensions loads found)

/-- Every call of a tag that completes is a request. Exported is the builder of the last request that
is marked with `main`, or else that of the first request, or else all the output of the template. -/
theorem compile_exports {extensions : List Extension}
    (builtIn : ∀ extension ∈ extensions, extension ∈ catalog) {envs : Environments}
    (loads : ofExtensions extensions = .ok envs) {source : String} {compiled : Compiled}
    (short : source.length < 2 ^ 64) (compiles : envs.compile source = .ok compiled) :
    ∃ program, Program.decode compiled.code = .ok program ∧
      ∀ strict members fuel exported,
        Machine.runProgram envs.runtime strict fuel program (.object members) =
          .finished exported →
        let setting : Setting := ⟨program, envs.runtime, strict, members⟩
        let past := passed setting fuel Machine.start
        (∀ machine ∈ past, ∀ tag argc kwargs hasBody,
          program[machine.pc]? = some (.callTag tag argc kwargs hasBody) →
            tag = Catalog.Request.name ∧ (machine.request? setting).isSome) ∧
        exported = some (((Request.chosen? (requests setting past)).map Request.builder).getD
          (written setting past)) := by
  obtain ⟨tree, -, decoded, -⟩ := decode_compile short compiles
  refine ⟨_, decoded, fun strict members fuel exported finished => ?_⟩
  intro setting past
  have program : setting.program = Template.program _ := rfl
  have tags : setting.runtime.BuiltIn := builtIn_ofExtensions builtIn loads
  constructor
  · intro machine within tag argc kwargs hasBody fetched
    obtain ⟨next, stepped⟩ := Machine.step_of_passed within
    obtain ⟨named, request, called, -⟩ := Machine.request_of_step tags fetched stepped
    exact ⟨named, by rw [called]; rfl⟩
  · obtain ⟨final, reached, ended, rfl⟩ := Machine.run_finished finished
    obtain ⟨closed, exports⟩ := Template.final_machine program reached ended
    have chronicled := Machine.passed_keeps (Template.chronicled_step program tags)
      (Or.inl (Machine.undelivered_start setting)) reached
    exact Machine.exported_of_chronicled chronicled closed exports

/-- Requests in a loop inside a request. Of the four that complete only the second is marked. -/
theorem compile_exports_nested :
    let source := "\x7b% req 'b' %\x7dx\x7b% for i in ids %\x7d\x7b% req 'a' main=i %\x7d " ++
      "\x7b\x7b i \x7d\x7d\x7b% endreq %\x7d\x7b% endfor %\x7d\x7b% endreq %\x7d"
    let members := [("ids", Json.array [.null, .bool true, .null])]
    ∃ envs compiled program builder, ofExtensions catalog = .ok envs ∧
      envs.compile source = .ok compiled ∧ Program.decode compiled.code = .ok program ∧
      Machine.runProgram envs.runtime true 60 program (.object members) =
        .finished (some builder) ∧
      (requests ⟨program, envs.runtime, true, members⟩
        (passed ⟨program, envs.runtime, true, members⟩ 60 Machine.start)).map (·.name) =
          ["a", "a", "a", "b"] ∧
      builder.name = some "a" ∧ builder.statement = "$1".toList ∧
      builder.parameters.map Json.isTruthy = [true] := by
  intro source members
  have runs : (ofExtensions catalog).toOption.any (fun envs =>
      (envs.compile source).toOption.isSome &&
        (Template.parse envs.compileTime.tags source).toOption.any fun tree =>
          let program := Template.program (tree.revise (Revision.reading envs.asyncFilters))
          let completed := requests ⟨program, envs.runtime, true, members⟩
            (passed ⟨program, envs.runtime, true, members⟩ 60 Machine.start)
          (Machine.runProgram envs.runtime true 60 program (.object members)).exportedName? ==
              some "a" &&
            completed.map (·.name) == ["a", "a", "a", "b"] &&
            (Request.chosen? completed).any fun request =>
              request.builder.statement == "$1".toList &&
                request.builder.parameters.map Json.isTruthy == [true]) = true := by
    decide +kernel
  obtain ⟨envs, loads, runs⟩ := (Option.any_eq_true ..).mp runs
  have loads := eq_ok_iff_toOption.mpr loads
  obtain ⟨succeeds, runs⟩ := Bool.and_eq_true_iff.mp runs
  obtain ⟨compiled, compiles⟩ := Option.isSome_iff_exists.mp succeeds
  have compiles := eq_ok_iff_toOption.mpr compiles
  obtain ⟨tree, parsed, runs⟩ := (Option.any_eq_true ..).mp runs
  have parsed := eq_ok_iff_toOption.mpr parsed
  obtain ⟨program, decoded, exports⟩ :=
    compile_exports (fun _ listed => listed) loads (by decide) compiles
  obtain ⟨template, read, written, -⟩ := decode_compile (by decide) compiles
  cases parsed.symm.trans read
  cases written.symm.trans decoded
  simp only [Bool.and_eq_true, beq_iff_eq] at runs
  obtain ⟨⟨named, completed⟩, chosen⟩ := runs
  obtain ⟨request, last, chosen⟩ := (Option.any_eq_true ..).mp chosen
  simp only [Bool.and_eq_true, beq_iff_eq] at chosen
  obtain ⟨statement, parameters⟩ := chosen
  unfold RunResult.exportedName? at named
  split at named
  next builder finished =>
    have same := (exports true members 60 _ finished).2
    rw [last, Option.map_some, Option.getD_some, Option.some.injEq] at same
    cases same
    exact ⟨envs, compiled, _, _, loads, compiles, decoded, finished, completed, named, statement,
      parameters⟩
  next => cases named

end Environments

end QueryTemplate
