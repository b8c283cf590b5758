import QueryTemplate.Proofs.Code.Bounds
import QueryTemplate.Proofs.Code.Contents
import QueryTemplate.Proofs.Code.Programs
import QueryTemplate.Proofs.Json.Faithful
import QueryTemplate.Proofs.Program.RoundTrip
import QueryTemplate.Proofs.Reading.Sources
import QueryTemplate.Proofs.Template.Revision

set_option autoImplicit false

/- Code is read back as the program it was written from, as far as the numbers in its constants are.
Reading a floating-point number rounds twice, so some numbers come back as a neighbour. -/

namespace QueryTemplate

theorem Instr.reread?_eq_self (instr : Instr) :
    instr.reread? = some instr ↔
      ∀ value, instr = .const value → value.Faithful Json.maxDepth := by
  cases instr with
  | const value =>
      simp only [reread?, Option.map_eq_some_iff, const.injEq, exists_eq_right, forall_eq',
        Json.ofText?_print_eq_self]
  | _ => exact iff_of_true rfl fun value same => by cases same

theorem mapM_reread_eq_self (program : Program) :
    program.mapM Instr.reread? = some program ↔
      ∀ value, .const value ∈ program → value.Faithful Json.maxDepth := by
  induction program with
  | nil => exact iff_of_true rfl fun value within => nomatch within
  | cons instr rest ih =>
      have heads := instr.reread?_eq_self
      simp only [List.mem_cons, or_imp, forall_and, eq_comm (b := instr)] at heads ⊢
      rw [← ih, ← heads, List.mapM_cons]
      cases head : instr.reread? with
      | none => simp
      | some first => cases tail : rest.mapM Instr.reread? <;> simp

namespace Program

/-- No operand takes more than 64 bits, and no jump leads beyond the end. -/
structure Addressed (program : Program) : Prop where
  fits : ∀ instr ∈ program, instr.Fits
  inside : ∀ target ∈ program.filterMap Instr.target?, target ≤ program.length

theorem decode_encode {program : Program} (addressed : program.Addressed) :
    decode program.encode = .ok program ↔
      ∀ value, .const value ∈ program → value.Faithful Json.maxDepth := by
  rw [decode, encode, String.toList_ofList, eq_ok_iff_toOption,
    Listing.decodeChars_encodeChars addressed.fits addressed.inside, mapM_reread_eq_self]

end Program

theorem Instr.target?_mem_counts {instr : Instr} {target : Nat}
    (jumps : instr.target? = some target) : target ∈ instr.counts := by
  cases instr <;> cases jumps <;> exact List.mem_cons_self

theorem Template.addressed_program {template : Template}
    (small : Node.listSize template < 2 ^ 64) : (Template.program template).Addressed where
  fits := fun instr within count counted =>
    Nat.lt_of_le_of_lt (bounded_program template instr within count counted) small
  inside := by
    intro target within
    obtain ⟨instr, listed, jumps⟩ := List.mem_filterMap.mp within
    have bound := bounded_program template instr listed target (Instr.target?_mem_counts jumps)
    rw [length_program]
    omega

/-- Of the values of literals only floating-point numbers may come back different. -/
theorem Literal.faithful_toJson {literal : Literal} (inRange : literal.InRange) (depth : Nat) :
    literal.toJson.Faithful depth ↔
      ∀ x, literal.toJson = .number (.float x) → (Number.float x).reread? = some (.float x) := by
  cases literal with
  | null => exact iff_of_true trivial fun x same => nomatch same
  | bool value => exact iff_of_true trivial fun x same => nomatch same
  | string value => exact iff_of_true trivial fun x same => nomatch same
  | int value =>
      have width : (twoPow 63 : Int) = 2 ^ 63 := rfl
      have bounds : -(twoPow 63 : Int) ≤ value ∧ value < (twoPow 63 : Int) := inRange
      rw [width] at bounds
      apply iff_of_true
      · exact (Number.reread?_int value).mpr ⟨bounds.1, by omega⟩
      · exact fun x same => nomatch same
  | float value =>
      by_cases finite : value.isFinite
      · simp only [toJson, finite, ↓reduceIte, Json.Faithful, Json.number.injEq,
          Number.float.injEq, forall_eq']
      · simp only [toJson, finite, Bool.false_eq_true, ↓reduceIte, Json.Faithful, reduceCtorEq,
          false_implies, implies_true]

theorem Template.literalsInRange_awaiting {names : List String} {template : Template}
    (inRange : LiteralsInRange (elements template)) :
    LiteralsInRange (elements (template.awaiting names)) := by
  intro value span within
  rw [awaiting_eq_revise, elements_revise] at within
  obtain ⟨element, listed, same⟩ := List.mem_map.mp within
  cases element with
  | node node => cases same
  | expr expr =>
      cases expr with
      | literal other place =>
          cases same
          exact inRange other span listed
      | _ => cases same

theorem Template.listSize_awaiting (names : List String) (template : Template) :
    Node.listSize (template.awaiting names) = Node.listSize template := by
  rw [awaiting_eq_revise]
  exact Node.listSize_revise _ template

namespace Environments

variable {envs : Environments} {source : String} {template : Template} {metadata : Metadata}

theorem analyze_eq_ok (analyzed : envs.analyze source = .ok (template, metadata)) :
    ∃ tree, Template.parse envs.compileTime.tags source = .ok tree ∧
      template = Template.awaiting envs.asyncFilters tree := by
  unfold analyze at analyzed
  split at analyzed
  next => cases analyzed
  next tree read =>
    cases analyzed
    exact ⟨tree, read, rfl⟩

theorem compile_eq_ok {compiled : Compiled} (compiles : envs.compile source = .ok compiled) :
    ∃ template, envs.analyze source = .ok (template, compiled.metadata) ∧
      generate template envs.runtime = .ok (Template.program template) ∧
      compiled.code = (Template.program template).encode := by
  unfold compile at compiles
  split at compiles
  next => cases compiles
  next template metadata analyzed =>
    split at compiles
    next => cases compiles
    next program generated =>
      cases compiles
      obtain ⟨resolved, rfl⟩ := generate_eq_ok generated
      exact ⟨template, analyzed, generated, rfl⟩

/-- A tree from a source has a program that can be written, and its integers have 64 bits. -/
theorem analyze_covers (analyzed : envs.analyze source = .ok (template, metadata))
    (short : source.length < 2 ^ 64) :
    (Template.program template).Addressed ∧ LiteralsInRange (Template.elements template) := by
  obtain ⟨tree, read, rfl⟩ := analyze_eq_ok analyzed
  have covered := Template.parse_covers read
  refine ⟨Template.addressed_program ?_, Template.literalsInRange_awaiting covered.literals⟩
  rw [Template.listSize_awaiting]
  exact Nat.lt_of_le_of_lt covered.size short

theorem decode_compiled (analyzed : envs.analyze source = .ok (template, metadata))
    (short : source.length < 2 ^ 64) :
    Program.decode (Template.program template).encode = .ok (Template.program template) ↔
      ∀ x, .const (.number (.float x)) ∈ Template.program template →
        (Number.float x).reread? = some (.float x) := by
  obtain ⟨addressed, inRange⟩ := analyze_covers analyzed short
  rw [Program.decode_encode addressed]
  constructor
  · exact fun faithful x within => faithful _ within
  · intro floats value within
    obtain ⟨literal, span, listed, rfl⟩ := (Template.const_mem_program template value).mp within
    apply (Literal.faithful_toJson (inRange literal span listed) _).mpr
    intro x same
    exact floats x (same ▸ within)

end Environments

/-- Code is read back as the program it was written from just when every constant is read back from
its own text. Of compiled code that is so just when every floating-point literal is. -/
theorem Program.decode_restores (program : Program) (envs : Environments) (source : String) :
    (program.Addressed →
      (decode program.encode = .ok program ↔
        ∀ value, .const value ∈ program → value.Faithful Json.maxDepth)) ∧
    ∀ compiled, source.length < 2 ^ 64 → envs.compile source = .ok compiled →
      ∃ template generated, envs.analyze source = .ok (template, compiled.metadata) ∧
        generate template envs.runtime = .ok generated ∧ compiled.code = generated.encode ∧
        (decode compiled.code = .ok generated ↔
          ∀ x, .const (.number (.float x)) ∈ generated →
            (Number.float x).reread? = some (.float x)) := by
  refine ⟨fun addressed => decode_encode addressed, ?_⟩
  intro compiled short compiles
  obtain ⟨template, analyzed, generated, written⟩ := Environments.compile_eq_ok compiles
  refine ⟨template, Template.program template, analyzed, generated, written, ?_⟩
  rw [written]
  exact Environments.decode_compiled analyzed short

/-- The floating-point number that an instruction pushes. -/
def Instr.float? : Instr → Option Binary64
  | .const (.number (.float x)) => some x
  | _ => none

theorem Program.decode_restores_lookalikes :
    let program : Program :=
      [.text " end\nprogram v1\r\n", .const (.array [.string "\t\"", .null]), .emit, .jump 5,
        .callTag "" 0 ["\\", "\n"] true, .deliver]
    let source := "end\n\x7b\x7b 2 \x7d\x7d"
    (program.Addressed ∧ decode program.encode = .ok program) ∧
      ∃ compiled program, ({} : Environments).compile source = .ok compiled ∧
        decode compiled.code = .ok program := by
  intro program source
  constructor
  · have addressed : program.Addressed :=
      ⟨by simp [program, Instr.Fits, Instr.counts], by simp [program, Instr.target?]⟩
    refine ⟨addressed, ((decode_restores program {} source).1 addressed).mpr fun value within => ?_⟩
    simp only [program, List.mem_cons, Instr.const.injEq, reduceCtorEq, List.not_mem_nil,
      false_or, or_false] at within
    rw [within]
    exact ⟨trivial, trivial, trivial⟩
  · have succeeds : (({} : Environments).compile source).toOption.isSome := by decide +kernel
    obtain ⟨compiled, compiles⟩ := Option.isSome_iff_exists.mp succeeds
    have compiles := eq_ok_iff_toOption.mpr compiles
    obtain ⟨template, program, analyzed, generated, -, restores⟩ :=
      (decode_restores program {} source).2 compiled (by decide) compiles
    refine ⟨compiled, program, compiles, restores.mpr fun x within => ?_⟩
    -- the program has no floating-point constant
    have floatless : (({} : Environments).analyze source).toOption.all (fun analysis =>
        (Template.program analysis.1).all fun instr => instr.float?.isNone) := by decide +kernel
    rw [analyzed] at floatless
    rw [generate_eq_ok generated] at within
    exact absurd (List.all_eq_true.mp floatless _ within) Bool.false_ne_true

/-- Reading `9301078817733611` as a significand rounds it before the division by a power of ten. -/
theorem Program.decode_drifts :
    let x : Binary64 := ⟨false, 4621425659941969488, by decide⟩
    let program : Program := [.const (.number (.float x)), .emit, .deliver]
    ((({} : Environments).compile "\x7b\x7b 9.301078817733611 \x7d\x7d").toOption.map (·.code) =
        some program.encode ∧ x.isFinite ∧ program.Addressed) ∧
      decode program.encode ≠ .ok program := by
  intro x program
  have addressed : program.Addressed :=
    ⟨by simp [program, Instr.Fits, Instr.counts], by simp [program, Instr.target?]⟩
  refine ⟨⟨by decide +kernel, by decide +kernel, addressed⟩, fun restored => ?_⟩
  have faithful := (decode_encode addressed).mp restored _ List.mem_cons_self
  have drifts : (Number.float x).reread? ≠ some (.float x) := by decide +kernel
  exact drifts faithful

end QueryTemplate
