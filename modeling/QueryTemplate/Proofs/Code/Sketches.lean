import Mathlib.Data.List.Forall2
import QueryTemplate.Proofs.Execution.History

set_option autoImplicit false

/- What is known of the stack at each address of a program, before any run. Constants are known from
their instructions until they are popped; what else is pushed is not known. If what is known at an
address after an instruction agrees with what is assumed there, then the assumptions hold of every
state of every run. -/

namespace QueryTemplate

/-- What is known of the top of a stack, slot by slot: the data there, if it is known. Of what lies
below nothing is known. -/
abbrev Sketch : Type := List (Option Json)

namespace Sketch

/-- A slot holds the data that is known of it. -/
def Shows (known : Option Json) (slot : Slot) : Prop :=
  ∀ value, known = some value → slot = .data value

def Fits : Sketch → List Slot → Prop
  | [], _ => True
  | known :: rest, slot :: stack => Shows known slot ∧ Fits rest stack
  | _ :: _, [] => False

theorem Fits.push {sketch : Sketch} {stack : List Slot} (fits : sketch.Fits stack) (slot : Slot) :
    Fits (none :: sketch) (slot :: stack) := ⟨nofun, fits⟩

theorem Fits.pushData {sketch : Sketch} {stack : List Slot} (fits : sketch.Fits stack)
    (value : Json) : Fits (some value :: sketch) (.data value :: stack) :=
  ⟨fun _ same => congrArg Slot.data (Option.some.inj same), fits⟩

theorem Fits.drop {sketch : Sketch} {stack : List Slot} (fits : sketch.Fits stack) (count : Nat) :
    Fits (sketch.drop count) (stack.drop count) := by
  induction count generalizing sketch stack with
  | zero => exact fits
  | succ count ih =>
      match sketch, stack with
      | [], _ => trivial
      | _ :: _, _ :: _ => exact ih fits.2

theorem Fits.front {front back : Sketch} {stack : List Slot} (fits : Fits (front ++ back) stack) :
    List.Forall₂ Shows front (stack.take front.length) := by
  induction front generalizing stack with
  | nil => exact .nil
  | cons known rest ih =>
      cases stack with
      | nil => cases fits
      | cons slot stack => exact .cons fits.1 (ih fits.2)

/-- Every stack that fits the first sketch fits the second. -/
def Entails (sketch weaker : Sketch) : Prop := ∀ stack, sketch.Fits stack → weaker.Fits stack

theorem Entails.refl (sketch : Sketch) : Entails sketch sketch := fun _ fits => fits

theorem Entails.nil (sketch : Sketch) : Entails sketch [] := fun _ _ => trivial

theorem Entails.trans {first second third : Sketch} (here : Entails first second)
    (there : Entails second third) : Entails first third := fun _ fits => there _ (here _ fits)

/-- What is known of the top is forgotten. -/
theorem Entails.forget (known : Option Json) (sketch : Sketch) :
    Entails (known :: sketch) (none :: sketch)
  | _ :: _, fits => ⟨nofun, fits.2⟩

end Sketch

/-- Where an instruction at an address may lead, and what is then known of the stack. -/
def Instr.outcomes (address : Nat) (before : Sketch) : Instr → List (Nat × Sketch)
  | .const value => [(address + 1, some value :: before)]
  | .load _ => [(address + 1, none :: before)]
  | .attr _ => [(address + 1, none :: before.drop 1)]
  | .negate => [(address + 1, none :: before.drop 1)]
  | .binary _ => [(address + 1, none :: before.drop 2)]
  | .filter _ _ argc => [(address + 1, none :: before.drop (argc + 1))]
  | .emit => [(address + 1, before.drop 1)]
  | .assign _ => [(address + 1, before.drop 1)]
  | .jump target => [(target, before)]
  | .jumpIfFalse target => [(address + 1, before.drop 1), (target, before.drop 1)]
  | .jumpIfFalseOrPop target => [(address + 1, before.drop 1), (target, before)]
  | .jumpIfTrueOrPop target => [(address + 1, before.drop 1), (target, before)]
  | .iterStart => [(address + 1, before.drop 1)]
  | .iterNext _ exit => [(address + 1, before), (exit, before)]
  | .callTag _ argc kwargs _ => [(address + 1, before.drop (kwargs.length + argc))]
  | .text _ => [(address + 1, before)]
  | .capture => [(address + 1, before)]
  | .deliver => [(address + 1, before)]

namespace Machine

/-- A machine is at an address, with a stack of which so much is known. -/
structure Stands (machine : Machine) (address : Nat) (known : Sketch) : Prop where
  pc : machine.pc = address
  stack : known.Fits machine.stack

namespace Stands

variable {machine : Machine} {address : Nat} {known : Sketch}

theorem push (stands : machine.Stands address known) (slot : Slot) :
    (machine.push slot).Stands address (none :: known) :=
  ⟨stands.pc, stands.stack.push slot⟩

theorem jumpTo (stands : machine.Stands address known) (target : Nat) :
    (machine.jumpTo target).Stands target known :=
  ⟨rfl, stands.stack⟩

/-- Neither the address nor the stack has changed. -/
theorem keep {next : Machine} (stands : machine.Stands address known)
    (same : (next.pc, next.stack) = (machine.pc, machine.stack)) : next.Stands address known := by
  obtain ⟨pc, stack⟩ := Prod.mk.inj same
  exact ⟨pc.trans stands.pc, stack ▸ stands.stack⟩

theorem drop (stands : machine.Stands address known) (count : Nat) :
    (machine.drop count).Stands address (known.drop count) :=
  ⟨stands.pc, stands.stack.drop count⟩

theorem assign (stands : machine.Stands address known) (name : String) (slot : Slot) :
    (machine.assign name slot).Stands address known := by
  refine stands.keep ?_
  unfold Machine.assign
  split <;> rfl

theorem setOutput (stands : machine.Stands address known) (builder : Builder) :
    (machine.setOutput builder).Stands address known := by
  refine stands.keep ?_
  unfold Machine.setOutput
  split <;> rfl

theorem perform (stands : machine.Stands address known) (effect : TagEffect) :
    (machine.perform effect).Stands address known := by
  cases effect with
  | setVariable name value => exact stands.assign name _
  | setBuilder name builder => exact stands.assign name _
  | write output => exact stands.setOutput output
  | deliver builder => exact stands.keep rfl

theorem performAll (stands : machine.Stands address known) (effects : List TagEffect) :
    (effects.foldl Machine.perform machine).Stands address known := by
  induction effects generalizing machine with
  | nil => exact stands
  | cons effect rest ih => exact ih (stands.perform effect)

theorem callTag {setting : Setting} {argc : Nat} {kwargs : List String} {hasBody : Bool}
    {context : TagContext} {rest : Machine} (stands : machine.Stands address known)
    (hands : machine.hand setting argc kwargs hasBody = .ok (context, rest))
    (effects : List TagEffect) :
    (effects.foldl Machine.perform rest).Stands address (known.drop (kwargs.length + argc)) := by
  obtain ⟨body, takes, -⟩ := takesBody_of_hand hands
  have left : rest.Stands address (known.drop (kwargs.length + argc)) := by
    cases takes with
    | none => exact stands.drop _
    | captured => exact (stands.drop _).keep rfl
  exact left.performAll effects

theorem deliver (stands : machine.Stands address known) : machine.deliver.Stands address known := by
  refine stands.keep ?_
  unfold Machine.deliver
  split <;> rfl

end Stands

variable {setting : Setting} {machine : Machine} {address : Nat} {known : Sketch}

/-- An instruction leads to one of its outcomes. -/
theorem stands_succeeds {instr : Instr} {next : Machine}
    (stands : machine.Stands (address + 1) known) (done : machine.Succeeds setting instr next) :
    ∃ outcome ∈ instr.outcomes address known, next.Stands outcome.1 outcome.2 := by
  have first {outcome : Nat × Sketch} {others : List (Nat × Sketch)}
      (reached : next.Stands outcome.1 outcome.2) :
      ∃ listed ∈ outcome :: others, next.Stands listed.1 listed.2 :=
    ⟨_, List.mem_cons_self, reached⟩
  have second {outcome other : Nat × Sketch} (reached : next.Stands outcome.1 outcome.2) :
      ∃ listed ∈ [other, outcome], next.Stands listed.1 listed.2 :=
    ⟨_, List.mem_cons_of_mem _ List.mem_cons_self, reached⟩
  cases done with
  | text => exact first (stands.setOutput _)
  | const value => exact first ⟨stands.pc, stands.stack.pushData value⟩
  | load | loadNull => exact first (stands.push _)
  | attr | negate | binary | filter => exact first ((stands.drop _).push _)
  | splice | bind => exact first ((stands.drop 1).setOutput _)
  | assign => exact first ((stands.drop 1).assign _ _)
  | jump => exact first (stands.jumpTo _)
  | holds | dropTrue | dropFalse => exact first (stands.drop 1)
  | fails => exact second ((stands.drop 1).jumpTo _)
  | keepFalse | keepTrue => exact second (stands.jumpTo _)
  | openLoop => exact first ((stands.drop 1).keep rfl)
  | closeLoop => exact second ⟨rfl, stands.stack⟩
  | bindItem =>
      refine first (Stands.assign (Stands.assign ?_ _ _) _ _)
      exact stands.keep rfl
  | capture => exact first (stands.keep rfl)
  | callTag hands => exact first (stands.callTag hands _)
  | deliver => exact first stands.deliver

end Machine

/-- What holds of each item of a list and the address at which it stands, if the list stands at a
base. -/
def EachAt {α : Type} (holds : Nat → α → Prop) : (base : Nat) → List α → Prop
  | _, [] => True
  | base, item :: rest => holds base item ∧ EachAt holds (base + 1) rest

namespace EachAt

variable {α : Type} {holds : Nat → α → Prop} {base : Nat}

@[simp] theorem nil : EachAt holds base [] := trivial

@[simp] theorem cons {item : α} {rest : List α} :
    EachAt holds base (item :: rest) ↔ holds base item ∧ EachAt holds (base + 1) rest := Iff.rfl

@[simp] theorem append {first second : List α} :
    EachAt holds base (first ++ second) ↔
      EachAt holds base first ∧ EachAt holds (base + first.length) second := by
  induction first generalizing base with
  | nil => simp
  | cons item rest ih =>
      rw [List.cons_append, cons, cons, ih, List.length_cons, Nat.add_right_comm, and_assoc,
        Nat.add_assoc]

theorem iff_getElem? {items : List α} :
    EachAt holds base items ↔
      ∀ index item, items[index]? = some item → holds (base + index) item := by
  induction items generalizing base with
  | nil => simp
  | cons first rest ih =>
      rw [cons, ih]
      constructor
      · rintro ⟨here, later⟩ (_ | index) item found
        · cases found
          exact here
        · have there := later index item found
          rwa [Nat.add_right_comm] at there
      · refine fun each => ⟨each 0 first rfl, fun index item found => ?_⟩
        rw [Nat.add_right_comm]
        exact each (index + 1) item found

end EachAt

/-- What an instruction leaves known is all that is assumed wherever it leads. -/
def Instr.Follows (labels : Nat → Sketch) (address : Nat) (instr : Instr) : Prop :=
  ∀ outcome ∈ instr.outcomes address (labels address), outcome.2.Entails (labels outcome.1)

/-- If every instruction of a program leads to what is assumed, then it holds along every run that
begins with it. -/
theorem Machine.fits_advance {setting : Setting} {labels : Nat → Sketch}
    (follows : EachAt (Instr.Follows labels) 0 setting.program) {first final : Machine}
    (start : (labels first.pc).Fits first.stack) {steps : Nat}
    (reached : first.advance setting steps = .ok final) : (labels final.pc).Fits final.stack := by
  have keeps (past : List Machine) (machine next : Machine)
      (fits : (labels machine.pc).Fits machine.stack)
      (stepped : machine.step? setting = some (.ok next)) : (labels next.pc).Fits next.stack := by
    obtain ⟨instr, fetched, done⟩ := succeeds_of_step stepped
    have stands : (machine.jumpTo (machine.pc + 1)).Stands (machine.pc + 1)
        (labels machine.pc) := ⟨rfl, fits⟩
    obtain ⟨outcome, leads, there⟩ := stands_succeeds stands done
    have assumed := EachAt.iff_getElem?.mp follows _ _ fetched
    rw [Nat.zero_add] at assumed
    rw [there.pc]
    exact assumed outcome leads next.stack there.stack
  exact @passed_keeps setting (fun _ machine => (labels machine.pc).Fits machine.stack) keeps steps
    [] first final start reached

end QueryTemplate
