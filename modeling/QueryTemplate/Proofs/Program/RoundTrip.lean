import QueryTemplate.Proofs.Program.Operands

set_option autoImplicit false

/- A program that is written and read again is the program with each constant as its own text is
read, whatever texts, names and constants it holds. -/

namespace QueryTemplate

open Json (printString)
open Text (Solid isBlank)

namespace Listing

theorem solid_record {name : String} {value : List Char} {members : List (String × List Char)}
    (first : Solid value) (all : ∀ member ∈ members, Solid member.2) :
    Solid (record ((name, value) :: members)) := by
  have opening : Solid ['{'] := Solid.singleton rfl
  have closing : Solid ['}'] := Solid.singleton rfl
  have head : Solid (printString name ++ ':' :: value) :=
    (Json.solid_printString name).append (Solid.cons rfl first)
  have inner : '\n' ∉ (printString name ++ ':' :: value) ++
      members.flatMap (fun member => ',' :: printString member.1 ++ ':' :: member.2) := by
    rw [List.mem_append, not_or]
    refine ⟨head.unbroken, fun within => ?_⟩
    obtain ⟨member, listed, broken⟩ := List.mem_flatMap.mp within
    have piece : Solid (',' :: printString member.1 ++ ':' :: member.2) :=
      (Solid.cons rfl (Json.solid_printString member.1)).append (Solid.cons rfl (all member listed))
    exact piece.unbroken broken
  have whole := opening.around closing inner
  simp only [record, List.append_assoc, List.cons_append, List.nil_append] at whole ⊢
  exact whole

theorem solid_boolText (value : Bool) : Solid (boolText value) := by
  cases value <;> exact Solid.of_literal (by decide)

theorem solid_operand {instr : Instr} {operand : List Char} (given : operand? instr = some operand) :
    Solid operand := by
  cases instr with
  | text content => cases given; exact Json.solid_printString content
  | const value => cases given; exact Json.solid_print value
  | load name => cases given; exact Json.solid_printString name
  | attr name => cases given; exact Json.solid_printString name
  | negate => cases given
  | binary op => cases given; exact Json.solid_printString op.symbol
  | filter awaited name argc =>
      cases given
      apply solid_record (Json.solid_printString name)
      intro member within
      rw [List.mem_singleton.mp within]
      exact Decimal.solid_natText argc
  | emit => cases given
  | assign name => cases given; exact Json.solid_printString name
  | jump target => cases given; exact Decimal.solid_natText target
  | jumpIfFalse target => cases given; exact Decimal.solid_natText target
  | jumpIfFalseOrPop target => cases given; exact Decimal.solid_natText target
  | jumpIfTrueOrPop target => cases given; exact Decimal.solid_natText target
  | iterStart => cases given
  | iterNext var exit =>
      cases given
      apply solid_record (Json.solid_printString var)
      intro member within
      rw [List.mem_singleton.mp within]
      exact Decimal.solid_natText exit
  | capture => cases given
  | callTag name argc kwargs hasBody =>
      cases given
      apply solid_record (Json.solid_printString name)
      intro member within
      simp only [List.mem_cons, List.not_mem_nil, or_false] at within
      rcases within with rfl | rfl | rfl
      · exact Decimal.solid_natText argc
      · exact Json.solid_print _
      · exact solid_boolText hasBody
  | deliver => cases given

def mnemonics : List String :=
  ["text", "const", "load", "attr", "not", "binop", "filter", "await_filter", "emit", "set", "jump",
    "jump_if_false", "jump_if_false_or_pop", "jump_if_true_or_pop", "iter_start", "iter_next",
    "capture", "call_tag", "export"]

theorem mnemonic_mem (instr : Instr) : instr.mnemonic ∈ mnemonics := by
  cases instr with
  | filter awaited _ _ => cases awaited <;> simp [Instr.mnemonic, mnemonics]
  | _ => simp [Instr.mnemonic, mnemonics]

theorem mnemonic_filled (instr : Instr) : ∀ c ∈ instr.mnemonic.toList, isBlank c = false := by
  have every : mnemonics.all (fun mnemonic => mnemonic.toList.all fun c => !isBlank c) := by decide
  intro c within
  have filled := List.all_eq_true.mp (List.all_eq_true.mp every _ (mnemonic_mem instr)) c within
  exact (Bool.not_eq_true' _).mp filled

theorem solid_mnemonic (instr : Instr) : Solid instr.mnemonic.toList := by
  have every : ∀ mnemonic ∈ mnemonics, mnemonic.toList ≠ [] := by decide
  exact Solid.of_filled (every _ (mnemonic_mem instr)) (mnemonic_filled instr)

theorem solid_line (instr : Instr) : Solid (line instr) := by
  unfold line
  split
  next operand given =>
    have whole := (solid_mnemonic instr).around (solid_operand given) (show '\n' ∉ [' '] by decide)
    rwa [List.append_assoc] at whole
  next => exact solid_mnemonic instr

theorem mnemonic_ne_footer (instr : Instr) : instr.mnemonic.toList ≠ footer := by
  have every : ∀ mnemonic ∈ mnemonics, mnemonic.toList ≠ footer := by decide
  exact every _ (mnemonic_mem instr)

/-- No instruction is taken for the end of the program. -/
theorem line_ne_footer (instr : Instr) : line instr ≠ footer := by
  unfold line
  split
  next operand _ =>
    intro same
    have spaced : ' ' ∈ footer := by
      rw [← same]
      exact List.mem_append_right _ List.mem_cons_self
    exact absurd spaced (by decide)
  next => exact mnemonic_ne_footer instr

theorem mnemonic_together (instr : Instr) : ∀ c ∈ instr.mnemonic.toList, decide (c ≠ ' ') = true := by
  intro c within
  apply decide_eq_true
  rintro rfl
  cases mnemonic_filled instr ' ' within

theorem takeWhile_line (instr : Instr) :
    (line instr).takeWhile (· ≠ ' ') = instr.mnemonic.toList := by
  have before (rest : List Char) : (instr.mnemonic.toList ++ rest).takeWhile (· ≠ ' ') =
      instr.mnemonic.toList ++ rest.takeWhile (· ≠ ' ') :=
    List.takeWhile_append_of_pos (mnemonic_together instr)
  unfold line
  split
  next operand _ => rw [before, List.takeWhile_cons_of_neg (by decide), List.append_nil]
  next =>
    have whole := before []
    rwa [List.append_nil, List.takeWhile_nil, List.append_nil] at whole

theorem dropWhile_line (instr : Instr) :
    (line instr).dropWhile (· ≠ ' ') = ((operand? instr).map (' ' :: ·)).getD [] := by
  have after (rest : List Char) : (instr.mnemonic.toList ++ rest).dropWhile (· ≠ ' ') =
      rest.dropWhile (· ≠ ' ') := List.dropWhile_append_of_pos (mnemonic_together instr)
  unfold line
  cases operand? instr with
  | some operand =>
      dsimp only
      rw [after, List.dropWhile_cons_of_neg (by decide), Option.map_some, Option.getD_some]
  | none =>
      have whole := after []
      rwa [List.append_nil, List.dropWhile_nil] at whole

theorem readLine_line (number : Nat) (instr : Instr) :
    readLine number (line instr) =
      match instr? instr.mnemonic (operand? instr) with
      | none => .error (.unknownInstruction number instr.mnemonic)
      | some (.error fault) => .error (.invalidOperand number fault)
      | some (.ok instr) => .ok instr := by
  simp only [readLine, takeWhile_line, dropWhile_line, String.ofList_toList]
  cases operand? instr <;> rfl

theorem readLine_of_reread {instr : Instr} (fits : instr.Fits) (number : Nat) :
    (readLine number (line instr)).toOption = instr.reread? := by
  rw [readLine_line, instr?_operand fits]
  cases instr.reread? <;> rfl

theorem solid_header : Solid header := by
  have first : Solid "program".toList := Solid.of_literal (by decide)
  have second : Solid "v1".toList := Solid.of_literal (by decide)
  exact first.around second (show '\n' ∉ [' '] by decide)

theorem solid_footer : Solid footer := Solid.of_literal (by decide)

/-- The lines that are written before the footer. -/
def written (program : Program) : List (List Char) := header :: program.map line

theorem encodeChars_eq_unlines (program : Program) :
    encodeChars program = Text.unlines (written program ++ [footer]) := by
  rw [written, List.cons_append, Text.unlines_cons, Text.unlines_append, Text.unlines_cons]
  simp only [encodeChars, Text.unlines, List.flatMap_map, List.append_assoc, List.cons_append,
    List.flatMap_nil]

theorem solid_written (program : Program) : ∀ text ∈ written program ++ [footer], Solid text := by
  intro text within
  simp only [written, List.cons_append, List.mem_cons, List.mem_append, List.mem_map,
    List.not_mem_nil, or_false] at within
  rcases within with rfl | ⟨instr, -, rfl⟩ | rfl
  · exact solid_header
  · exact solid_line instr
  · exact solid_footer

theorem lines_encodeChars (program : Program) :
    Text.lines (encodeChars program) = header :: (program.map line ++ [footer]) := by
  have whole := Text.lines_unlines_append (solid_written program) []
  rw [List.append_nil, ← encodeChars_eq_unlines] at whole
  exact whole.trans (List.append_nil _)

/-- A line with its number, unless it is blank. -/
def filled? : List Char × Nat → Option (Nat × List Char) := fun (line, number) =>
  match Text.trim line with
  | [] => none
  | trimmed => some (number, trimmed)

theorem filled?_solid {chars : List Char} (solid : Solid chars) (number : Nat) :
    filled? (chars, number) = some (number, chars) := by
  simp only [filled?, solid.trim]
  obtain ⟨c, rest, rfl, _⟩ := solid.starts
  rfl

theorem filterMap_zipIdx {chars : List Char} (solid : Solid chars) (others : List (List Char))
    (number : Nat) :
    ((chars :: others).zipIdx number).filterMap filled? =
      (number, chars) :: (others.zipIdx (number + 1)).filterMap filled? := by
  rw [List.zipIdx_cons, List.filterMap_cons, filled?_solid solid]

theorem readBody_lines (program : Program) (fits : ∀ instr ∈ program, instr.Fits) (number : Nat) :
    (readBody (((program.map line ++ [footer]).zipIdx number).filterMap filled?)).toOption =
      program.mapM Instr.reread? := by
  induction program generalizing number with
  | nil =>
      rw [List.map_nil, List.nil_append, filterMap_zipIdx solid_footer]
      rfl
  | cons instr program ih =>
      have head := readLine_of_reread (fits instr List.mem_cons_self) number
      have tail := ih (fun other within => fits other (List.mem_cons_of_mem _ within)) (number + 1)
      rw [List.map_cons, List.cons_append, filterMap_zipIdx (solid_line instr), List.mapM_cons,
        ← head, ← tail]
      simp only [readBody, line_ne_footer, ↓reduceIte]
      cases readLine number (line instr) with
      | error error => rfl
      | ok read =>
          simp only
          generalize readBody _ = body
          cases body <;> rfl

theorem target?_reread {instr other : Instr} (read : instr.reread? = some other) :
    other.target? = instr.target? := by
  cases instr with
  | const value =>
      obtain ⟨value, _, rfl⟩ := Option.map_eq_some_iff.mp read
      rfl
  | _ => cases read; rfl

theorem mapM_reread {program other : Program} (read : program.mapM Instr.reread? = some other) :
    other.filterMap Instr.target? = program.filterMap Instr.target? ∧
      other.length = program.length := by
  induction program generalizing other with
  | nil =>
      cases read
      exact ⟨rfl, rfl⟩
  | cons instr program ih =>
      rw [List.mapM_cons] at read
      cases head : instr.reread? with
      | none => rw [head] at read; cases read
      | some first =>
          cases tail : program.mapM Instr.reread? with
          | none => rw [head, tail] at read; cases read
          | some rest =>
              rw [head, tail] at read
              cases read
              obtain ⟨targets, length⟩ := ih tail
              refine ⟨?_, by simp only [List.length_cons, length]⟩
              rw [List.filterMap_cons, List.filterMap_cons, target?_reread head, targets]

theorem checkTargets_ok {program : Program}
    (inside : ∀ target ∈ program.filterMap Instr.target?, target ≤ program.length) :
    checkTargets program = .ok program := by
  unfold checkTargets
  split
  next target found =>
    have beyond := List.find?_some found
    simp only [decide_eq_true_eq] at beyond
    exact absurd (inside target (List.mem_of_find?_eq_some found)) (Nat.not_le.mpr beyond)
  next => rfl

theorem inside_of_checkTargets {program other : Program}
    (checked : checkTargets program = .ok other) :
    ∀ target ∈ other.filterMap Instr.target?, target ≤ other.length := by
  unfold checkTargets at checked
  split at checked
  next => cases checked
  next none =>
    cases checked
    intro target within
    have inside := List.find?_eq_none.mp none target within
    exact Nat.not_lt.mp fun beyond => inside (decide_eq_true beyond)

/-- What is read where a program was written. -/
theorem decodeChars_encodeChars {program : Program} (fits : ∀ instr ∈ program, instr.Fits)
    (inside : ∀ target ∈ program.filterMap Instr.target?, target ≤ program.length) :
    (decodeChars (encodeChars program)).toOption = program.mapM Instr.reread? := by
  have body := readBody_lines program fits 2
  have numbers : numbered (encodeChars program) =
      (1, header) :: ((program.map line ++ [footer]).zipIdx 2).filterMap filled? := by
    change ((Text.lines (encodeChars program)).zipIdx 1).filterMap filled? = _
    rw [lines_encodeChars, filterMap_zipIdx solid_header]
  unfold decodeChars
  rw [numbers]
  simp only [↓reduceIte]
  rw [← body]
  cases read : readBody (((program.map line ++ [footer]).zipIdx 2).filterMap filled?) with
  | error error => rfl
  | ok other =>
      rw [read] at body
      obtain ⟨targets, length⟩ := mapM_reread body.symm
      simp only
      rw [checkTargets_ok (by rw [targets, length]; exact inside)]

end Listing

end QueryTemplate
