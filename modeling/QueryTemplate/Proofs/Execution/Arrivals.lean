import QueryTemplate.Proofs.Code.Nodes
import QueryTemplate.Proofs.Code.Onward
import QueryTemplate.Proofs.Execution.Scopes

set_option autoImplicit false

/- Runs with the states on their way. A run that enters the code of a part at its beginning stays in
that code until it comes to its end, and never returns to the beginning. -/

namespace QueryTemplate

/-- The program without what stands from an address on. -/
def Setting.cut (setting : Setting) (stop : Nat) : Setting :=
  { setting with program := setting.program.take stop }

namespace Machine

theorem execute_cut (setting : Setting) (stop : Nat) (machine : Machine) (instr : Instr) :
    machine.execute (setting.cut stop) instr = machine.execute setting instr := by
  cases instr <;> rfl

theorem step?_cut (setting : Setting) (stop : Nat) (machine : Machine) :
    machine.step? (setting.cut stop) =
      if machine.pc < stop then machine.step? setting else none := by
  have fetched : (setting.cut stop).program[machine.pc]? =
      if machine.pc < stop then setting.program[machine.pc]? else none := List.getElem?_take
  by_cases below : machine.pc < stop
  · rw [if_pos below] at fetched ⊢
    simp only [step?, fetched, execute_cut]
  · rw [if_neg below] at fetched ⊢
    simp only [step?, fetched]

end Machine

/-- A run fails, or it comes to a state that, with the states passed on the way to it, is as
described. -/
def Arrives (setting : Setting) (machine : Machine) (post : List Machine → Machine → Prop) : Prop :=
  ∃ steps,
    (∃ error, machine.advance setting steps = .error error) ∨
      ∃ final, machine.advance setting steps = .ok final ∧
        post (machine.passed setting steps) final

namespace Arrives

variable {setting : Setting} {machine : Machine} {post final : List Machine → Machine → Prop}

theorem here (holds : post [] machine) : Arrives setting machine post :=
  ⟨0, Or.inr ⟨machine, rfl, holds⟩⟩

theorem bind (first : Arrives setting machine post)
    (rest : ∀ states next, post states next →
      Arrives setting next fun others last => final (states ++ others) last) :
    Arrives setting machine final := by
  obtain ⟨steps, ⟨error, failed⟩ | ⟨next, reached, holds⟩⟩ := first
  · exact ⟨steps, Or.inl ⟨error, failed⟩⟩
  · obtain ⟨more, outcome⟩ := rest _ _ holds
    refine ⟨steps + more, ?_⟩
    rw [Machine.advance_add, reached, Machine.passed_add reached]
    exact outcome

theorem imp (first : Arrives setting machine post)
    (weaker : ∀ states next, post states next → final states next) :
    Arrives setting machine final := by
  obtain ⟨steps, outcome⟩ := first
  refine ⟨steps, outcome.imp_right ?_⟩
  rintro ⟨next, reached, holds⟩
  exact ⟨next, reached, weaker _ _ holds⟩

theorem of_step {result : Except RuntimeError Machine}
    (stepped : machine.step? setting = some result) :
    Arrives setting machine fun states next => result = .ok next ∧ states = [machine] := by
  refine ⟨1, ?_⟩
  simp only [Machine.advance, Machine.passed, stepped]
  cases result with
  | error error => exact Or.inl ⟨error, rfl⟩
  | ok next => exact Or.inr ⟨next, rfl, rfl, rfl⟩

/-- One instruction whose effect is known. -/
theorem of_execute {instr : Instr} {result : Except RuntimeError Machine}
    (fetched : setting.program[machine.pc]? = some instr)
    (effect : (machine.jumpTo (machine.pc + 1)).execute setting instr = result) :
    Arrives setting machine fun states next => result = .ok next ∧ states = [machine] :=
  of_step (effect ▸ Machine.step?_of_fetched fetched)

/-- The instruction after others that have pushed values. -/
theorem of_reach {pc : Nat} {slots : List Slot} {instr : Instr}
    {result : Except RuntimeError Machine} (fetched : setting.program[pc]? = some instr)
    (effect : (machine.reach (pc + 1) slots).execute setting instr = result) :
    Arrives setting (machine.reach pc slots) fun states next =>
      result = .ok next ∧ states = [machine.reach pc slots] := of_execute fetched effect

/-- What a run does in a program that ends at an address it does before it goes beyond. -/
theorem of_cut {stop : Nat} {outcome : Except RuntimeError Machine}
    (leads : Leads (setting.cut stop) machine outcome) :
    Arrives setting machine fun states next =>
      outcome = .ok next ∧ ∀ state ∈ states, state.pc < stop := by
  obtain ⟨steps, led⟩ := leads
  induction steps generalizing machine with
  | zero => exact here ⟨led.symm, by simp⟩
  | succ steps ih =>
      simp only [Machine.advance, Machine.step?_cut] at led
      by_cases below : machine.pc < stop
      · rw [if_pos below] at led
        cases stepped : machine.step? setting with
        | none =>
            rw [stepped] at led
            exact here ⟨led.symm, by simp⟩
        | some result =>
            rw [stepped] at led
            refine (of_step stepped).bind ?_
            rintro _ next ⟨rfl, rfl⟩
            refine (ih led).imp ?_
            rintro others last ⟨reached, within⟩
            exact ⟨reached, List.forall_mem_cons.mpr ⟨below, within⟩⟩
      · rw [if_neg below] at led
        exact here ⟨led.symm, by simp⟩

end Arrives

section

variable {setting : Setting} {base : Nat} {code : List Instr}

theorem Onward.step (onward : Onward base code) (placed : CodeAt setting.program base code)
    {machine next : Machine} (above : base ≤ machine.pc) (below : machine.pc < base + code.length)
    (stepped : machine.step? setting = some (.ok next)) : base < next.pc := by
  obtain ⟨instr, fetched, following | jumped, -⟩ := Machine.steps_of_step stepped
  · rw [following, Machine.pc_jumpTo]
    omega
  · exact onward instr (placed.mem above below fetched) _ jumped

/-- A run that is inside beyond the first address stays beyond it. -/
theorem Onward.passed (onward : Onward base code) (placed : CodeAt setting.program base code)
    {steps : Nat} {machine final : Machine} (above : base < machine.pc)
    (reached : machine.advance setting steps = .ok final)
    (inside : ∀ state ∈ machine.passed setting steps, state.pc < base + code.length) :
    ∀ state ∈ machine.passed setting steps ++ [final], base < state.pc := by
  induction steps using Nat.strongRecOn generalizing machine with
  | ind steps ih =>
      rcases Machine.passed_cases reached with
        ⟨none, rfl⟩ | ⟨fewer, next, less, stepped, rest, passed⟩
      · rw [none]
        exact List.forall_mem_singleton.mpr above
      · rw [passed] at inside ⊢
        obtain ⟨below, later⟩ := List.forall_mem_cons.mp inside
        have beyond := onward.step placed (Nat.le_of_lt above) below stepped
        exact List.forall_mem_cons.mpr ⟨above, ih fewer less beyond rest later⟩

end

/-- States on the way from one state to another. They lie before an address, and nothing but the
first of them lies where the way begins. -/
structure Machine.Crosses (machine next : Machine) (stop : Nat) (states : List Machine) : Prop where
  bounds : ∀ state ∈ states, machine.pc ≤ state.pc ∧ state.pc < stop
  onward : ∃ later, states ++ [next] = machine :: later ∧ ∀ state ∈ later, machine.pc < state.pc

theorem Onward.crosses {setting : Setting} {code : List Instr} {machine final : Machine}
    {steps : Nat} (onward : Onward machine.pc code)
    (placed : CodeAt setting.program machine.pc code)
    (reached : machine.advance setting steps = .ok final)
    (inside : ∀ state ∈ machine.passed setting steps, state.pc < machine.pc + code.length) :
    machine.Crosses final (machine.pc + code.length) (machine.passed setting steps) := by
  rcases Machine.passed_cases reached with
    ⟨none, rfl⟩ | ⟨fewer, next, -, stepped, rest, passed⟩
  · rw [none]
    exact ⟨by simp, [], rfl, by simp⟩
  · rw [passed] at inside ⊢
    obtain ⟨below, later⟩ := List.forall_mem_cons.mp inside
    have beyond := onward.passed placed
      (onward.step placed (Nat.le_refl _) below stepped) rest later
    refine ⟨List.forall_mem_cons.mpr ⟨⟨Nat.le_refl _, below⟩, fun state within => ?_⟩,
      _, rfl, beyond⟩
    exact ⟨Nat.le_of_lt (beyond state (List.mem_append_left _ within)), later state within⟩

/-- A run that enters code which leads to the end of that code comes there within the code. -/
theorem Arrives.of_code {α : Type} {setting : Setting} {machine : Machine} {code : List Instr}
    {first : Except RuntimeError α} {reach : α → Machine}
    (placed : CodeAt setting.program machine.pc code) (onward : Onward machine.pc code)
    (leads : Leads (setting.cut (machine.pc + code.length)) machine (first.map reach)) :
    Arrives setting machine fun states next =>
      (∃ value, first = .ok value ∧ next = reach value) ∧
        machine.Crosses next (machine.pc + code.length) states := by
  obtain ⟨steps, outcome⟩ := Arrives.of_cut leads
  refine ⟨steps, outcome.imp_right ?_⟩
  rintro ⟨next, reached, same, inside⟩
  refine ⟨next, reached, ?_, onward.crosses placed reached inside⟩
  cases first with
  | error error => cases same
  | ok value => exact ⟨value, rfl, (Except.ok.inj same).symm⟩

theorem Expr.code_arrives (setting : Setting) (expr : Expr) (machine : Machine)
    (placed : CodeAt setting.program machine.pc (expr.code machine.pc)) :
    Arrives setting machine fun states next =>
      (∃ slot, expr.eval setting.surroundings machine.frames = .ok slot ∧
        next = machine.reach (machine.pc + (expr.code machine.pc).length) [slot]) ∧
      machine.Crosses next (machine.pc + (expr.code machine.pc).length) states :=
  .of_code placed (expr.onward_code (Nat.le_refl _)) (expr.code_leads _ machine placed.take)

theorem Node.listCode_arrives (setting : Setting) (nodes : List Node) (machine : Machine)
    (placed : CodeAt setting.program machine.pc (Node.listCode machine.pc nodes)) :
    Arrives setting machine fun states next =>
      (∃ scene, Node.listExec setting.surroundings machine.scene nodes = .ok scene ∧
        next = machine.resume (machine.pc + Node.listSize nodes) scene) ∧
      machine.Crosses next (machine.pc + Node.listSize nodes) states := by
  have length := Node.length_listCode nodes machine.pc
  rw [← length]
  refine .of_code placed (Node.onward_listCode nodes (Nat.le_refl _)) ?_
  rw [length]
  exact Node.listCode_leads _ nodes machine (length ▸ placed.take)

end QueryTemplate
