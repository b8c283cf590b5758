import QueryTemplate.Execution.Machine

set_option autoImplicit false

/- Why an instruction fails. It may find too few values on the stack, no open loop or no capture;
then the error says so, whatever else is wrong. All other errors are about a variable, a value or an
extension. -/

namespace QueryTemplate

namespace Instr

/-- How many values an instruction looks for on the stack. -/
def takes : Instr → Nat
  | attr _ => 1
  | negate => 1
  | binary _ => 2
  | filter _ _ argc => argc + 1
  | emit => 1
  | assign _ => 1
  | jumpIfFalse _ => 1
  | jumpIfFalseOrPop _ => 1
  | jumpIfTrueOrPop _ => 1
  | iterStart => 1
  | callTag _ argc kwargs _ => kwargs.length + argc
  | _ => 0

/-- How an error names the instruction that misuses the machine. Both kinds of filters have one
name. -/
def blame : Instr → String
  | filter _ _ _ => "filter"
  | instr => instr.mnemonic

end Instr

/-- An error that tells of a malformed use of the stack, the loops or the captures. -/
def RuntimeError.isMisuse : RuntimeError → Bool
  | stackUnderflow _ => true
  | missingCapture _ => true
  | _ => false

namespace Machine

/-- The error of an instruction that finds the machine without what it needs. -/
def misuse? (machine : Machine) (instr : Instr) : Option RuntimeError :=
  if machine.stack.length < instr.takes then some (.stackUnderflow instr.blame)
  else
    match instr with
    | .iterNext .. => if machine.loops.isEmpty then some (.stackUnderflow instr.blame) else none
    | .callTag _ _ _ hasBody =>
      if hasBody && machine.captures.isEmpty then some (.missingCapture instr.blame) else none
    | _ => none

/-- The reasons for which an instruction fails. -/
inductive Fails (setting : Setting) (machine : Machine) : Instr → RuntimeError → Prop
  | misuse {instr : Instr} {error : RuntimeError} (misused : machine.misuse? instr = some error) :
      Fails setting machine instr error
  | undefined {name : String} (strict : setting.strict = true)
      (absent : machine.lookup setting.data name = none) :
      Fails setting machine (.load name) (.undefinedVariable name)
  | notIterable {slot : Slot} {rest : List Slot} (top : machine.stack = slot :: rest)
      (single : slot.toJson.loopItems? = none) :
      Fails setting machine .iterStart (.notIterable slot.toJson.typeName)
  | unknownFilter {awaited : Bool} {name : String} {argc : Nat}
      (absent : Table.get? setting.runtime.filters name = none) :
      Fails setting machine (.filter awaited name argc) (.unknownFilter name)
  | unawaited {name : String} {argc : Nat} {filter : FilterRunner}
      (found : Table.get? setting.runtime.filters name = some filter)
      (isAsync : filter.isAsync = true) :
      Fails setting machine (.filter false name argc) (.unawaitedFilter name)
  | filter {awaited : Bool} {name : String} {argc : Nat} {filter : FilterRunner} {target : Json}
      {args : List Json} {error : ExtensionError}
      (found : Table.get? setting.runtime.filters name = some filter)
      (refused : filter.transform target args = .error error) :
      Fails setting machine (.filter awaited name argc) (.extension error)
  | unknownTag {name : String} {argc : Nat} {kwargs : List String} {hasBody : Bool}
      (absent : Table.get? setting.runtime.tags name = none) :
      Fails setting machine (.callTag name argc kwargs hasBody) (.unknownTag name)
  | tag {name : String} {argc : Nat} {kwargs : List String} {hasBody : Bool} {run : TagRunner}
      {context : TagContext} {error : ExtensionError}
      (found : Table.get? setting.runtime.tags name = some run)
      (refused : run context = .error error) :
      Fails setting machine (.callTag name argc kwargs hasBody) (.extension error)

variable {setting : Setting} {machine : Machine} {instr : Instr} {error : RuntimeError}

theorem isMisuse_of_misuse? (misused : machine.misuse? instr = some error) :
    error.isMisuse = true := by
  unfold misuse? at misused
  split at misused
  next => cases misused; rfl
  next =>
    split at misused
    next => split at misused <;> cases misused; rfl
    next => split at misused <;> cases misused; rfl
    next => cases misused

theorem pop_of_nil (empty : machine.stack = []) (mnemonic : String) :
    machine.pop mnemonic = .error (.stackUnderflow mnemonic) := by
  simp only [pop, empty]

theorem pop_of_cons {slot : Slot} {rest : List Slot} (top : machine.stack = slot :: rest)
    (mnemonic : String) :
    machine.pop mnemonic = .ok (slot, { machine with stack := rest }) := by
  simp only [pop, top]

theorem popValues_of_short {count : Nat} (short : machine.stack.length < count)
    (mnemonic : String) :
    machine.popValues count mnemonic = .error (.stackUnderflow mnemonic) := if_pos short

theorem popValues_of_le {count : Nat} (ample : count ≤ machine.stack.length)
    (mnemonic : String) :
    machine.popValues count mnemonic =
      .ok ((machine.stack.take count).reverse.map Slot.toJson,
        { machine with stack := machine.stack.drop count }) := if_neg (Nat.not_lt.mpr ample)

theorem popBody_of_nil (none : machine.captures = []) :
    machine.popBody true = .error (.missingCapture "call_tag") := by
  simp only [popBody, none, ↓reduceIte]

theorem exists_popBody {hasBody : Bool} (captured : hasBody = true → machine.captures ≠ []) :
    ∃ popped, machine.popBody hasBody = .ok popped := by
  unfold popBody
  split
  next has =>
    split
    next none => exact absurd none (captured has)
    next => exact ⟨_, rfl⟩
  next => exact ⟨_, rfl⟩

/-- A filter that finds its arguments goes on to the value that it filters. -/
theorem applyFilter_of_le {runtime : RuntimeEnvironment} {awaited : Bool} {name : String}
    {argc : Nat} (ample : argc ≤ machine.stack.length) :
    ∃ args, machine.applyFilter runtime awaited name argc =
      pop { machine with stack := machine.stack.drop argc } "filter" >>= fun popped =>
        match Table.get? runtime.filters name with
        | none => .error (.unknownFilter name)
        | some filter =>
          if filter.isAsync && !awaited then .error (.unawaitedFilter name)
          else
            match filter.transform popped.1.toJson args with
            | .error error => .error (.extension error)
            | .ok value => .ok (popped.2.pushData value) := by
  refine ⟨(machine.stack.take argc).reverse.map Slot.toJson, ?_⟩
  unfold applyFilter
  rw [popValues_of_le ample]
  rfl

/-- A call that finds its arguments goes on to its body. -/
theorem callTag_of_le {name : String} {argc : Nat} {kwargs : List String} {hasBody : Bool}
    (ample : kwargs.length + argc ≤ machine.stack.length) :
    ∃ args values, machine.callTag setting name argc kwargs hasBody =
      popBody { machine with stack := (machine.stack.drop kwargs.length).drop argc } hasBody >>=
        fun popped =>
          match Table.get? setting.runtime.tags name with
          | none => .error (.unknownTag name)
          | some run =>
            match run (popped.2.context setting.data args values popped.1) with
            | .error error => .error (.extension error)
            | .ok effects => .ok (effects.foldl perform popped.2) := by
  have rest : argc ≤ (machine.stack.drop kwargs.length).length := by
    rw [List.length_drop]
    omega
  refine ⟨((machine.stack.drop kwargs.length).take argc).reverse.map Slot.toJson,
    Table.ofList (kwargs.zip ((machine.stack.take kwargs.length).reverse.map Slot.toJson)), ?_⟩
  unfold callTag
  rw [popValues_of_le (by omega)]
  change popValues { machine with stack := machine.stack.drop kwargs.length } argc _ >>= _ = _
  rw [popValues_of_le rest]
  rfl

theorem stack_eq_nil_of_short (short : machine.stack.length < 1) : machine.stack = [] :=
  List.length_eq_zero_iff.mp (by omega)

theorem applyFilter_of_short {runtime : RuntimeEnvironment} {awaited : Bool} {name : String}
    {argc : Nat} (short : machine.stack.length < argc + 1) :
    machine.applyFilter runtime awaited name argc = .error (.stackUnderflow "filter") := by
  by_cases fewer : machine.stack.length < argc
  · rw [applyFilter, popValues_of_short fewer]
    rfl
  · obtain ⟨args, same⟩ := applyFilter_of_le (Nat.not_lt.mp fewer)
    have none : machine.stack.drop argc = [] := List.drop_eq_nil_iff.mpr (by omega)
    rw [same, pop_of_nil none]
    rfl

theorem binary_of_short {op : BinaryOp} (short : machine.stack.length < 2) :
    machine.execute setting (.binary op) = .error (.stackUnderflow "binop") := by
  rw [execute]
  cases top : machine.stack with
  | nil =>
      rw [pop_of_nil top]
      rfl
  | cons slot rest =>
      rw [pop_of_cons top]
      rw [top, List.length_cons] at short
      change pop { machine with stack := rest } "binop" >>= _ = _
      have none : rest = [] := List.length_eq_zero_iff.mp (by omega)
      rw [pop_of_nil none]
      rfl

theorem callTag_of_short {name : String} {argc : Nat} {kwargs : List String} {hasBody : Bool}
    (short : machine.stack.length < kwargs.length + argc) :
    machine.callTag setting name argc kwargs hasBody = .error (.stackUnderflow "call_tag") := by
  unfold callTag
  by_cases fewer : machine.stack.length < kwargs.length
  · rw [popValues_of_short fewer]
    rfl
  · rw [popValues_of_le (Nat.not_lt.mp fewer)]
    have still : (machine.stack.drop kwargs.length).length < argc := by
      rw [List.length_drop]
      omega
    change popValues { machine with stack := machine.stack.drop kwargs.length } argc _ >>= _ = _
    rw [popValues_of_short still]
    rfl

/-- An instruction that finds too few values on the stack fails with an error that says so. -/
theorem execute_of_short (short : machine.stack.length < instr.takes) :
    machine.execute setting instr = .error (.stackUnderflow instr.blame) := by
  cases instr with
  | attr | negate | assign | jumpIfFalse =>
      rw [execute, pop_of_nil (stack_eq_nil_of_short short)]
      rfl
  | binary op => exact binary_of_short short
  | filter awaited name argc => exact applyFilter_of_short short
  | emit =>
      rw [execute, emit, pop_of_nil (stack_eq_nil_of_short short)]
      rfl
  | jumpIfFalseOrPop | jumpIfTrueOrPop =>
      simp only [execute, shortCircuit, stack_eq_nil_of_short short]
      rfl
  | iterStart =>
      rw [execute, iterStart, pop_of_nil (stack_eq_nil_of_short short)]
      rfl
  | callTag name argc kwargs hasBody => exact callTag_of_short short
  | _ => cases short

/-- A machine that is misused answers with the error for it. -/
theorem execute_of_misuse (misused : machine.misuse? instr = some error) :
    machine.execute setting instr = .error error := by
  unfold misuse? at misused
  split at misused
  next short =>
    cases misused
    exact execute_of_short short
  next ample =>
    split at misused
    next var exit =>
      split at misused
      next closed =>
        cases misused
        simp only [execute, iterNext, List.isEmpty_iff.mp closed]
        rfl
      next => cases misused
    next name argc kwargs hasBody =>
      split at misused
      next bare =>
        cases misused
        obtain ⟨rfl, closed⟩ := Bool.and_eq_true_iff.mp bare
        obtain ⟨args, values, same⟩ := callTag_of_le (Nat.not_lt.mp ample)
        have missing := @popBody_of_nil
          { machine with stack := (machine.stack.drop kwargs.length).drop argc }
          (List.isEmpty_iff.mp closed)
        rw [execute, same, missing]
        rfl
      next => cases misused
    next => cases misused

/-- What a machine has that is not misused. -/
theorem ample_of_misuse? (used : machine.misuse? instr = none) :
    instr.takes ≤ machine.stack.length ∧
      (∀ var exit, instr = .iterNext var exit → machine.loops ≠ []) ∧
      (∀ name argc kwargs, instr = .callTag name argc kwargs true → machine.captures ≠ []) := by
  unfold misuse? at used
  split at used
  next => cases used
  next ample =>
    refine ⟨Nat.not_lt.mp ample, ?_, ?_⟩
    · rintro var exit rfl none
      simp [none] at used
    · rintro name argc kwargs rfl none
      simp [none] at used

theorem exists_top {machine : Machine} {count : Nat} (ample : count + 1 ≤ machine.stack.length) :
    ∃ slot rest, machine.stack = slot :: rest := List.exists_cons_of_length_pos (by omega)

theorem fails_applyFilter {awaited : Bool} {name : String} {argc : Nat}
    (ample : argc + 1 ≤ machine.stack.length)
    (failed : machine.applyFilter setting.runtime awaited name argc = .error error) :
    Fails setting machine (.filter awaited name argc) error := by
  have below : 0 + 1 ≤ (machine.stack.drop argc).length := by
    rw [List.length_drop]
    omega
  obtain ⟨target, rest, top⟩ := @exists_top { machine with stack := machine.stack.drop argc } 0 below
  obtain ⟨args, same⟩ := applyFilter_of_le (Nat.le_of_succ_le ample)
  rw [same, pop_of_cons top] at failed
  simp only [bind, Except.bind] at failed
  split at failed
  next absent =>
    cases failed
    exact .unknownFilter absent
  next filter found =>
    split at failed
    next pending =>
      cases failed
      obtain ⟨isAsync, unawaited⟩ := Bool.and_eq_true_iff.mp pending
      cases awaited with
      | true => cases unawaited
      | false => exact .unawaited found isAsync
    next =>
      split at failed
      next refused =>
        cases failed
        exact .filter found refused
      next => cases failed

theorem fails_callTag {name : String} {argc : Nat} {kwargs : List String} {hasBody : Bool}
    (ample : kwargs.length + argc ≤ machine.stack.length)
    (captured : hasBody = true → machine.captures ≠ [])
    (failed : machine.callTag setting name argc kwargs hasBody = .error error) :
    Fails setting machine (.callTag name argc kwargs hasBody) error := by
  obtain ⟨args, values, same⟩ := callTag_of_le ample
  obtain ⟨popped, pops⟩ := @exists_popBody
    { machine with stack := (machine.stack.drop kwargs.length).drop argc } hasBody captured
  rw [same, pops] at failed
  simp only [bind, Except.bind] at failed
  split at failed
  next absent =>
    cases failed
    exact .unknownTag absent
  next run found =>
    split at failed
    next refused =>
      cases failed
      exact .tag found refused
    next => cases failed

/-- Every failure has a reason. -/
theorem fails_execute (failed : machine.execute setting instr = .error error) :
    Fails setting machine instr error := by
  -- a misuse is found before anything else, so in the other case all operands are there
  cases used : machine.misuse? instr with
  | some other =>
      cases (execute_of_misuse used).symm.trans failed
      exact .misuse used
  | none =>
      obtain ⟨ample, looping, captured⟩ := ample_of_misuse? used
      cases instr with
      | text | const | jump | capture | deliver => cases failed
      | load name =>
          rw [execute, load] at failed
          split at failed
          next => cases failed
          next absent =>
            split at failed
            next strict =>
              cases failed
              exact .undefined strict absent
            next => cases failed
      | attr | negate | assign | jumpIfFalse =>
          obtain ⟨slot, rest, top⟩ := exists_top ample
          rw [execute, pop_of_cons top] at failed
          cases failed
      | binary op =>
          obtain ⟨right, rest, top⟩ := exists_top ample
          rw [execute, pop_of_cons top] at failed
          rw [top] at ample
          obtain ⟨left, others, next⟩ := @exists_top { machine with stack := rest } 0
            (Nat.le_of_succ_le_succ ample)
          change pop { machine with stack := rest } "binop" >>= _ = _ at failed
          rw [pop_of_cons next] at failed
          cases failed
      | filter awaited name argc => exact fails_applyFilter ample failed
      | emit =>
          obtain ⟨slot, rest, top⟩ := exists_top ample
          rw [execute, emit, pop_of_cons top] at failed
          cases slot <;> cases failed
      | jumpIfFalseOrPop | jumpIfTrueOrPop =>
          obtain ⟨slot, rest, top⟩ := exists_top ample
          simp only [execute, shortCircuit, top] at failed
          split at failed <;> cases failed
      | iterStart =>
          obtain ⟨slot, rest, top⟩ := exists_top ample
          rw [execute, iterStart, pop_of_cons top] at failed
          simp only [bind, Except.bind] at failed
          split at failed
          next single =>
            cases failed
            exact .notIterable top single
          next => cases failed
      | iterNext var exit =>
          rw [execute, iterNext] at failed
          split at failed
          next closed => exact absurd closed (looping var exit rfl)
          next => split at failed <;> cases failed
      | callTag name argc kwargs hasBody =>
          exact fails_callTag ample (fun has => captured name argc kwargs (has ▸ rfl)) failed

/-- An instruction fails for a malformed use of the machine exactly when the machine lacks what the
instruction needs. -/
theorem execute_eq_misuse_iff (misuse : error.isMisuse = true) :
    machine.execute setting instr = .error error ↔ machine.misuse? instr = some error := by
  refine ⟨fun failed => ?_, execute_of_misuse⟩
  cases fails_execute failed with
  | misuse misused => exact misused
  | _ => cases misuse

end Machine

end QueryTemplate
