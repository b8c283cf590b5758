import QueryTemplate.Proofs.Compilation.RoundTrip
import QueryTemplate.Proofs.Execution.Failures
import QueryTemplate.Proofs.Execution.Scopes
import QueryTemplate.Proofs.Tables

set_option autoImplicit false

/- The machine stays well formed on every program that can be read, compiled or not. Its invariant
does not rely on how blocks are laid out: each open loop has one frame above the frame of the
template, so that every assignment finds a frame, and every jump stays inside the program. -/

namespace QueryTemplate

namespace Machine

/-- The frame of the template, which lies below those of the open loops. -/
def templateFrame (machine : Machine) : Frame := machine.frames.getLast?.getD []

/-- The program counter is inside a program of a given length or at its end, each open loop has a
frame and has not gone beyond its items, and some names are bound in the frame of the template. -/
structure WellFormed (length : Nat) (bound : String → Prop) (machine : Machine) : Prop where
  pc : machine.pc ≤ length
  frames : machine.frames.length = machine.loops.length + 1
  positions : ∀ loop ∈ machine.loops, loop.position ≤ loop.items.length
  template : ∀ name, bound name → Table.contains machine.templateFrame name = true

namespace WellFormed

variable {length : Nat} {bound : String → Prop} {machine next : Machine}

theorem start : WellFormed length (fun _ => False) Machine.start where
  pc := Nat.zero_le length
  frames := rfl
  positions := fun _ within => nomatch within
  template := fun _ impossible => nomatch impossible

theorem exists_frame (wellFormed : machine.WellFormed length bound) :
    ∃ frame frames, machine.frames = frame :: frames :=
  List.exists_cons_of_length_pos (by rw [wellFormed.frames]; exact Nat.succ_pos _)

end WellFormed

theorem contains_getLast_assignAll {frames : List Frame} {name : String}
    (bound : Table.contains (frames.getLast?.getD []) name = true)
    (entries : List (String × Slot)) :
    Table.contains ((Frame.assignAll entries frames).getLast?.getD []) name = true := by
  match frames with
  | [] => exact bound
  | [frame] => exact Table.contains_merge bound entries
  | _ :: _ :: _ => simpa only [Frame.assignAll, List.getLast?_cons_cons] using bound

variable {length : Nat} {bound : String → Prop} {machine next : Machine}
  {entries : List (String × Slot)}

/-- Whatever a step does to loops and frames, they still fit together. -/
theorem WellFormed.moves (wellFormed : machine.WellFormed length bound)
    (moves : Moves entries machine next) (inside : next.pc ≤ length) :
    next.WellFormed length bound := by
  obtain ⟨frame, others, shape⟩ := wellFormed.exists_frame
  obtain ⟨-, counted, positions, template⟩ := wellFormed
  unfold templateFrame at template
  cases moves with
  | keeps loops frames =>
      refine ⟨inside, ?_, loops ▸ positions, fun name given => ?_⟩
      · rw [frames, loops, Frame.length_assignAll, counted]
      · rw [templateFrame, frames]
        exact contains_getLast_assignAll (template name given) entries
  | opens items silent loops frames =>
      refine ⟨inside, ?_, ?_, fun name given => ?_⟩
      · rw [frames, loops, List.length_cons, List.length_cons, counted]
      · rw [loops]
        exact List.forall_mem_cons.mpr ⟨Nat.zero_le _, positions⟩
      · rw [templateFrame, frames, shape, List.getLast?_cons_cons, ← shape]
        exact template name given
  | binds loop loops innermost more advanced frames =>
      rw [innermost] at counted positions
      refine ⟨inside, ?_, ?_, fun name given => ?_⟩
      · rw [frames, advanced, Frame.length_assignAll, counted]
        rfl
      · rw [advanced]
        exact List.forall_mem_cons.mpr ⟨more, (List.forall_mem_cons.mp positions).2⟩
      · rw [templateFrame, frames]
        exact contains_getLast_assignAll (template name given) entries
  | closes loop silent innermost frames =>
      rw [innermost] at counted positions
      -- the frame of the loop lies above at least one more
      rw [shape] at counted frames template
      cases others with
      | nil => cases counted
      | cons under others =>
          refine ⟨inside, ?_, (List.forall_mem_cons.mp positions).2, fun name given => ?_⟩
          · rw [frames]
            exact Nat.succ.inj counted
          · rw [templateFrame, frames]
            exact template name given

variable {setting : Setting}

theorem WellFormed.step (wellFormed : machine.WellFormed setting.program.length bound)
    (inside : ∀ target ∈ setting.program.filterMap Instr.target?, target ≤ setting.program.length)
    (stepped : machine.step? setting = some (.ok next)) :
    next.WellFormed setting.program.length bound := by
  obtain ⟨instr, fetched, address, moves⟩ := steps_of_step stepped
  obtain ⟨within, -⟩ := List.getElem?_eq_some_iff.mp fetched
  have on : (machine.jumpTo (machine.pc + 1)).WellFormed setting.program.length bound :=
    ⟨within, wellFormed.frames, wellFormed.positions, wellFormed.template⟩
  refine on.moves moves ?_
  rcases address with same | jumped
  · rw [same]
    exact within
  · exact inside _ (List.mem_filterMap.mpr ⟨instr, List.mem_of_getElem? fetched, jumped⟩)

theorem WellFormed.run (wellFormed : machine.WellFormed setting.program.length bound)
    (inside : ∀ target ∈ setting.program.filterMap Instr.target?, target ≤ setting.program.length)
    {steps : Nat}
    (reached : machine.advance setting steps = .ok next) :
    next.WellFormed setting.program.length bound :=
  @passed_keeps setting (fun _ state => state.WellFormed setting.program.length bound)
    (fun _ _ _ before stepped => before.step inside stepped) steps [] machine next wellFormed
    reached

/-- What a step assigns is what its variables are afterwards. -/
theorem WellFormed.lookup_of_step (wellFormed : machine.WellFormed length bound)
    (stepped : machine.step? setting = some (.ok next)) {name : String} {slot : Slot}
    (assigned : Table.get? (Table.ofList (machine.assignments setting)) name = some slot)
    (data : Table Json) : next.lookup data name = some slot := by
  obtain ⟨instr, -, -, moves⟩ := steps_of_step stepped
  obtain ⟨frame, others, shape⟩ := wellFormed.exists_frame
  have bound (frames : next.frames = Frame.assignAll (machine.assignments setting) machine.frames) :
      next.lookup data name = some slot := by
    simp only [lookup, frames, shape, Frame.assignAll, lookupFrames, Table.get?_merge, assigned,
      Option.some_or]
  cases moves with
  | keeps _ frames => exact bound frames
  | binds _ _ _ _ _ frames => exact bound frames
  | opens _ silent => rw [silent] at assigned; cases assigned
  | closes _ silent => rw [silent] at assigned; cases assigned

theorem step?_eq_none_iff (inside : machine.pc ≤ setting.program.length) :
    machine.step? setting = none ↔ machine.pc = setting.program.length := by
  constructor
  · intro ended
    cases fetched : setting.program[machine.pc]? with
    | none => exact Nat.le_antisymm inside (List.getElem?_eq_none_iff.mp fetched)
    | some instr =>
        rw [step?_of_fetched fetched] at ended
        cases ended
  · intro last
    exact step?_at_end (List.getElem?_eq_none (Nat.le_of_eq last.symm))

/-- A step fails for a malformed use exactly when its instruction lacks what it needs. -/
theorem step?_eq_misuse_iff {error : RuntimeError} (misuse : error.isMisuse = true) :
    machine.step? setting = some (.error error) ↔
      ∃ instr, setting.program[machine.pc]? = some instr ∧ machine.misuse? instr = some error := by
  cases fetched : setting.program[machine.pc]? with
  | none =>
      rw [step?_at_end fetched]
      simp
  | some instr =>
      rw [step?_of_fetched fetched, Option.some.injEq, execute_eq_misuse_iff misuse]
      simp only [Option.some.injEq, exists_eq_left']
      rfl

end Machine

theorem Program.inside_of_decode {code : String} {program : Program}
    (decoded : decode code = .ok program) :
    ∀ target ∈ program.filterMap Instr.target?, target ≤ program.length := by
  unfold decode Listing.decodeChars at decoded
  split at decoded
  next => cases decoded
  next =>
    split at decoded
    next =>
      split at decoded
      next => cases decoded
      next => exact Listing.inside_of_checkTargets decoded
    next => cases decoded

/-- A machine that runs a program that can be read stays well formed. Its program counter stays
inside the program, and the run ends exactly at its end. Each open loop has one frame above that of
the template, which is never given up, and each variable that a step assigns has the value that it
was assigned last; what no frame binds is still a member of the data. A malformed use of the stack,
the loops or the captures is an error, and there is no such error otherwise. -/
theorem Program.run_wellFormed {code : String} {program : Program}
    (decoded : decode code = .ok program) (runtime : RuntimeEnvironment) (strict : Bool)
    (members : Table Json) {steps : Nat} {machine : Machine}
    (reached : Machine.start.advance ⟨program, runtime, strict, members⟩ steps = .ok machine) :
    let setting : Setting := ⟨program, runtime, strict, members⟩
    machine.pc ≤ program.length ∧ (machine.step? setting = none ↔ machine.pc = program.length) ∧
    machine.frames.length = machine.loops.length + 1 ∧
    (∀ loop ∈ machine.loops, loop.position ≤ loop.items.length) ∧
    (∀ more later, machine.advance setting more = .ok later →
      ∀ name, Table.contains machine.templateFrame name = true →
        Table.contains later.templateFrame name = true) ∧
    (∀ next, machine.step? setting = some (.ok next) → ∀ name slot,
      Table.get? (Table.ofList (machine.assignments setting)) name = some slot →
        next.lookup members name = some slot) ∧
    (∀ name, machine.lookup members name = (Machine.lookupFrames name machine.frames).or
      ((Table.get? members name).map .data)) ∧
    ∀ error : RuntimeError, error.isMisuse = true →
      (machine.step? setting = some (.error error) ↔
        ∃ instr, program[machine.pc]? = some instr ∧ machine.misuse? instr = some error) := by
  intro setting
  have inside := inside_of_decode decoded
  have wellFormed := Machine.WellFormed.start.run inside reached
  refine ⟨wellFormed.pc, Machine.step?_eq_none_iff wellFormed.pc, wellFormed.frames,
    wellFormed.positions, ?_, ?_, ?_, fun error misuse => Machine.step?_eq_misuse_iff misuse⟩
  · intro more later further
    -- the same invariant once more, from the names that are bound now
    have now : machine.WellFormed setting.program.length
        (fun name => Table.contains machine.templateFrame name = true) :=
      ⟨wellFormed.pc, wellFormed.frames, wellFormed.positions, fun _ given => given⟩
    exact (now.run inside further).template
  · exact fun next stepped name slot assigned => wellFormed.lookup_of_step stepped assigned members
  · intro name
    unfold Machine.lookup
    cases Machine.lookupFrames name machine.frames <;> rfl

/-- A jump out of a capture into a loop. The loop binds its item, and the assignment after it finds
no value. -/
theorem Program.run_wellFormed_jumbled :
    let program : Program :=
      [.const (.array [.null]), .iterStart, .capture, .jump 5, .iterStart, .iterNext "x" 7,
        .assign "y"]
    let setting : Setting := ⟨program, {}, false, []⟩
    decode program.encode = .ok program ∧
      ∃ machine, Machine.start.advance setting 5 = .ok machine ∧ machine.pc = 6 ∧
        machine.captures.length = 1 ∧ machine.loops.length = 1 ∧ machine.frames.length = 2 ∧
        machine.step? setting = some (.error (.stackUnderflow "set")) := by
  intro program setting
  have addressed : program.Addressed :=
    ⟨by simp [program, Instr.Fits, Instr.counts], by decide⟩
  have decoded : decode program.encode = .ok program := by
    refine (decode_encode addressed).mpr fun value within => ?_
    simp only [program, List.mem_cons, Instr.const.injEq, reduceCtorEq, List.not_mem_nil,
      or_false] at within
    rw [within]
    exact ⟨trivial, trivial⟩
  have runs : (Machine.start.advance setting 5).toOption.any (fun machine =>
      machine.pc == 6 && machine.captures.length == 1 && machine.loops.length == 1 &&
        machine.misuse? (.assign "y") == some (.stackUnderflow "set")) = true := by
    decide +kernel
  obtain ⟨machine, reached, runs⟩ := (Option.any_eq_true ..).mp runs
  have reached := eq_ok_iff_toOption.mpr reached
  simp only [Bool.and_eq_true, beq_iff_eq] at runs
  obtain ⟨⟨⟨pc, captures⟩, loops⟩, misused⟩ := runs
  obtain ⟨-, -, frames, -, -, -, -, misuses⟩ := run_wellFormed decoded {} false [] reached
  rw [loops] at frames
  refine ⟨decoded, machine, reached, pc, captures, loops, frames, (misuses _ rfl).mpr ?_⟩
  exact ⟨.assign "y", by rw [pc]; rfl, misused⟩

end QueryTemplate
