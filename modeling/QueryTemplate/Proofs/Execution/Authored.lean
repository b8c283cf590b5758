import QueryTemplate.Proofs.Builder.Authored
import QueryTemplate.Proofs.Execution.Successes

set_option autoImplicit false

/- Executions in which only the texts of the program reach a statement. Builders may lie on the
stack and in variables, and may be read as data there; nothing ever makes a builder of data. -/

namespace QueryTemplate

variable {source : String → Prop}

def Slot.Authored (source : String → Prop) : Slot → Prop
  | data _ => True
  | builder value => value.Authored source

namespace Slot.Authored

theorem data (value : Json) : (Slot.data value).Authored source := trivial

theorem binary (op : BinaryOp) {left right : Slot} (first : left.Authored source)
    (second : right.Authored source) : (Slot.binary op left right).Authored source := by
  cases op
  case and =>
    simp only [Slot.binary]
    split
    · exact second
    · exact first
  case or =>
    simp only [Slot.binary]
    split
    · exact first
    · exact second
  all_goals exact data _

end Slot.Authored

def Frame.Authored (source : String → Prop) (frame : Frame) : Prop :=
  ∀ name slot, Table.get? frame name = some slot → slot.Authored source

theorem Frame.Authored.insert {frame : Frame} (authored : frame.Authored source) (name : String)
    {slot : Slot} (given : slot.Authored source) :
    Frame.Authored source (Table.insert frame name slot) := by
  intro other found bound
  by_cases same : other = name
  · rw [same, Table.get?_insert_self] at bound
    cases bound
    exact given
  · rw [Table.get?_insert_of_ne _ _ same] at bound
    exact authored other found bound

/-- Wherever an execution keeps a builder, the statement of the builder consists of pieces of texts
of the source. -/
structure Machine.Authored (source : String → Prop) (machine : Machine) : Prop where
  stack : ∀ slot ∈ machine.stack, slot.Authored source
  frames : ∀ frame ∈ machine.frames, frame.Authored source
  main : machine.main.Authored source
  captures : ∀ builder ∈ machine.captures, builder.Authored source
  exported : ∀ builder, machine.exported = some builder → builder.Authored source

/-- An effect that leaves the statements of builders to the source. -/
def TagEffect.Authored (source : String → Prop) : TagEffect → Prop
  | setVariable _ _ => True
  | setBuilder _ builder => builder.Authored source
  | write output => output.Authored source
  | deliver builder => builder.Authored source

/-- A tag that puts nothing into statements but texts of the source: none of its own, and no data. -/
def TagRunner.Faithful (source : String → Prop) (run : TagRunner) : Prop :=
  ∀ (context : TagContext) (effects : List TagEffect),
    (∀ body, context.body = some body → body.Authored source) → context.output.Authored source →
    run context = .ok effects → ∀ effect ∈ effects, effect.Authored source

/-- The texts of the program come from the source, and its tags add none. -/
structure Setting.Authored (source : String → Prop) (setting : Setting) : Prop where
  texts : ∀ content, .text content ∈ setting.program → source content
  tags : ∀ name run, Table.get? setting.runtime.tags name = some run → run.Faithful source

namespace Machine.Authored

variable {machine : Machine}

theorem start : Machine.start.Authored source where
  stack := fun _ within => nomatch within
  frames := by
    intro frame within
    rw [List.mem_singleton.mp within]
    exact fun _ _ found => nomatch found
  main := .empty
  captures := fun _ within => nomatch within
  exported := fun _ found => nomatch found

theorem lookup (authored : machine.Authored source) {data : Table Json} {name : String}
    {slot : Slot} (found : machine.lookup data name = some slot) : slot.Authored source := by
  unfold Machine.lookup at found
  split at found
  next bound inside =>
    cases found
    have frames := authored.frames
    clear authored
    generalize machine.frames = others at inside frames
    induction others with
    | nil => cases inside
    | cons frame others ih =>
        obtain ⟨head, tail⟩ := List.forall_mem_cons.mp frames
        unfold Machine.lookupFrames at inside
        split at inside
        next own => cases inside; exact head name _ own
        next => exact ih inside tail
  next =>
    obtain ⟨value, -, rfl⟩ := Option.map_eq_some_iff.mp found
    exact .data value

theorem output (authored : machine.Authored source) : machine.output.Authored source := by
  unfold Machine.output
  split
  next => exact authored.main
  next capture _ open_ => exact authored.captures capture (by rw [open_]; exact List.mem_cons_self)

theorem setOutput (authored : machine.Authored source) {builder : Builder}
    (given : builder.Authored source) : (machine.setOutput builder).Authored source := by
  unfold Machine.setOutput
  split
  next => exact { authored with main := given }
  next capture captures open_ =>
    have others := authored.captures
    rw [open_] at others
    exact { authored with
      captures := List.forall_mem_cons.mpr ⟨given, (List.forall_mem_cons.mp others).2⟩ }

theorem assign (authored : machine.Authored source) (name : String) {slot : Slot}
    (given : slot.Authored source) : (machine.assign name slot).Authored source := by
  unfold Machine.assign
  split
  next => exact authored
  next frame frames open_ =>
    have all := authored.frames
    rw [open_] at all
    obtain ⟨head, tail⟩ := List.forall_mem_cons.mp all
    exact { authored with frames := List.forall_mem_cons.mpr ⟨head.insert name given, tail⟩ }

theorem push (authored : machine.Authored source) {slot : Slot} (given : slot.Authored source) :
    (machine.push slot).Authored source :=
  { authored with stack := List.forall_mem_cons.mpr ⟨given, authored.stack⟩ }

theorem pushData (authored : machine.Authored source) (value : Json) :
    (machine.pushData value).Authored source := authored.push (.data value)

theorem jumpTo (authored : machine.Authored source) (target : Nat) :
    (machine.jumpTo target).Authored source := { authored with }

theorem drop (authored : machine.Authored source) (count : Nat) :
    (machine.drop count).Authored source :=
  { authored with stack := fun slot within => authored.stack slot (List.mem_of_mem_drop within) }

theorem top (authored : machine.Authored source) {slot : Slot}
    (top : machine.stack.head? = some slot) : slot.Authored source :=
  authored.stack slot (List.mem_of_mem_head? top)

theorem openLoop (authored : machine.Authored source) (items : List Json) :
    Machine.Authored source
      { machine with loops := ⟨items, 0⟩ :: machine.loops, frames := [] :: machine.frames } :=
  { authored with
    frames := List.forall_mem_cons.mpr ⟨fun _ _ found => (nomatch found), authored.frames⟩ }

theorem closeLoop (authored : machine.Authored source) (exit : Nat) (loops : List Loop) :
    Machine.Authored source
      { machine with pc := exit, loops, frames := machine.frames.tail } :=
  { authored with
    frames := fun frame within => authored.frames frame (List.mem_of_mem_tail within) }

theorem bindItem (authored : machine.Authored source) (var : String) (item status : Json)
    (loops : List Loop) :
    Machine.Authored source ((({ machine with loops } : Machine).assign var (.data item)).assign
      "loop" (.data status)) := by
  have opened : Machine.Authored source { machine with loops } := { authored with }
  exact (opened.assign var (.data item)).assign "loop" (.data status)

theorem perform (authored : machine.Authored source) {effect : TagEffect}
    (given : effect.Authored source) : (machine.perform effect).Authored source := by
  cases effect with
  | setVariable name value => exact authored.assign name (.data value)
  | setBuilder name builder => exact authored.assign name given
  | write output => exact authored.setOutput given
  | deliver builder =>
      refine { authored with exported := ?_ }
      rintro _ ⟨⟩
      exact given

theorem performAll (authored : machine.Authored source) {effects : List TagEffect}
    (given : ∀ effect ∈ effects, effect.Authored source) :
    (effects.foldl Machine.perform machine).Authored source := by
  induction effects generalizing machine with
  | nil => exact authored
  | cons effect effects ih =>
      obtain ⟨head, tail⟩ := List.forall_mem_cons.mp given
      exact ih (authored.perform head) tail

theorem takesBody (authored : machine.Authored source) {hasBody : Bool} {body : Option Builder}
    {rest : Machine} (takes : machine.TakesBody hasBody body rest) :
    (∀ inner, body = some inner → inner.Authored source) ∧ rest.Authored source := by
  cases takes with
  | none => exact ⟨fun _ found => (nomatch found), authored⟩
  | captured innermost =>
      have all := authored.captures
      rw [innermost] at all
      obtain ⟨head, tail⟩ := List.forall_mem_cons.mp all
      refine ⟨?_, { authored with captures := tail }⟩
      rintro _ ⟨⟩
      exact head

theorem deliver (authored : machine.Authored source) : machine.deliver.Authored source := by
  unfold Machine.deliver
  split
  · exact authored
  · refine { authored with main := .empty, exported := ?_ }
    rintro _ ⟨⟩
    exact authored.main

/-- Every instruction leaves the statements to the source. Of data that is bound the statement gets
the placeholder alone. -/
theorem succeeds (authored : machine.Authored source) {setting : Setting}
    (faithful : setting.Authored source) {instr : Instr} (listed : instr ∈ setting.program)
    {next : Machine} (done : machine.Succeeds setting instr next) : next.Authored source := by
  cases done with
  | text content =>
      have given := Text.Authored.piece (faithful.texts content listed) List.infix_rfl
      exact authored.setOutput (authored.output.push given)
  | const value => exact authored.pushData value
  | load found => exact authored.push (authored.lookup found)
  | loadNull => exact authored.pushData .null
  | attr | negate | filter => exact (authored.drop _).pushData _
  | binary op last first =>
      exact (authored.drop 2).push (.binary op ((authored.drop 1).top first) (authored.top last))
  | splice top => exact (authored.drop 1).setOutput (authored.output.append (authored.top top))
  | bind => exact (authored.drop 1).setOutput (authored.output.bind _)
  | assign name top => exact (authored.drop 1).assign name (authored.top top)
  | jump | keepFalse | keepTrue => exact authored.jumpTo _
  | holds | dropTrue | dropFalse => exact authored.drop 1
  | fails => exact (authored.drop 1).jumpTo _
  | openLoop => exact (authored.drop 1).openLoop _
  | closeLoop => exact authored.closeLoop _ _
  | bindItem => exact authored.bindItem _ _ _ _
  | capture =>
      exact { authored with captures := List.forall_mem_cons.mpr ⟨.empty, authored.captures⟩ }
  | callTag hands found ran =>
      obtain ⟨body, takes, rfl⟩ := takesBody_of_hand hands
      obtain ⟨inner, rest⟩ := (authored.drop _).takesBody takes
      exact rest.performAll (faithful.tags _ _ found _ _ inner rest.output ran)
  | deliver => exact authored.deliver

theorem step (authored : machine.Authored source) {setting : Setting}
    (faithful : setting.Authored source) {next : Machine}
    (stepped : machine.step? setting = some (.ok next)) : next.Authored source := by
  obtain ⟨instr, fetched, done⟩ := succeeds_of_step stepped
  exact (authored.jumpTo _).succeeds faithful (List.mem_of_getElem? fetched) done

/-- What a finished run exports has a statement of pieces of the source. -/
theorem run (authored : machine.Authored source) {setting : Setting}
    (faithful : setting.Authored source) {fuel : Nat} {builder : Builder}
    (finished : Machine.run setting fuel machine = .finished (some builder)) :
    builder.Authored source := by
  induction fuel generalizing machine with
  | zero =>
      unfold Machine.run at finished
      split at finished
      next => exact authored.exported builder (RunResult.finished.inj finished)
      next => cases finished
  | succ fuel ih =>
      unfold Machine.run at finished
      split at finished
      next => exact authored.exported builder (RunResult.finished.inj finished)
      next => cases finished
      next next stepped => exact ih (authored.step faithful stepped) finished

end Machine.Authored

end QueryTemplate
