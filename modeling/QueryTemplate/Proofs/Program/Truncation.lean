import Mathlib.Data.List.Basic
import QueryTemplate.Proofs.Program.RoundTrip
import QueryTemplate.Proofs.Text.Cuts

set_option autoImplicit false

/- The text of a program that is not whole is refused. What is read ends with its only footer, and
no part of the line of an instruction is taken for the footer, so a cut is noticed wherever it
falls, unless only the last line feed is missing. So is anything but white space after the footer.
-/

namespace QueryTemplate

open Text (Solid trim isBlank)

namespace Listing

/-- The lines that are not blank, trimmed. -/
def filledLines (chars : List Char) : List (List Char) :=
  ((Text.lines chars).map trim).filter (· ≠ [])

theorem map_snd_numbered (chars : List Char) :
    (numbered chars).map Prod.snd = filledLines chars := by
  change (((Text.lines chars).zipIdx 1).filterMap filled?).map Prod.snd = _
  unfold filledLines
  generalize Text.lines chars = texts
  generalize 1 = number
  induction texts generalizing number with
  | nil => rfl
  | cons text texts ih =>
      rw [List.zipIdx_cons, List.filterMap_cons, List.map_cons]
      cases trimmed : trim text with
      | nil =>
          simp only [filled?, trimmed]
          rw [ih, List.filter_cons_of_neg (by simp)]
      | cons c rest =>
          simp only [filled?, trimmed, List.map_cons]
          rw [ih, List.filter_cons_of_pos (by simp)]

/-- A body that is read ends with its only footer. -/
theorem readBody_ends {entries : List (Nat × List Char)} {program : Program}
    (read : readBody entries = .ok program) :
    ∃ body, entries.map Prod.snd = body ++ [footer] ∧ footer ∉ body := by
  fun_induction readBody entries generalizing program with
  | case1 => cases read
  | case2 number rest last =>
      rw [List.isEmpty_iff.mp last]
      exact ⟨[], rfl, List.not_mem_nil⟩
  | case3 => cases read
  | case4 => cases read
  | case5 => cases read
  | case6 number chars rest other instr _ tail readTail ih =>
      obtain ⟨body, same, none⟩ := ih readTail
      refine ⟨chars :: body, ?_, ?_⟩
      · rw [List.map_cons, same]
        rfl
      · rw [List.mem_cons, not_or]
        exact ⟨Ne.symm other, none⟩

theorem decodeChars_frames {chars : List Char} {program : Program}
    (read : decodeChars chars = .ok program) :
    ∃ body, filledLines chars = header :: (body ++ [footer]) ∧ footer ∉ body := by
  rw [← map_snd_numbered]
  unfold decodeChars at read
  split at read
  next => cases read
  next number first rest entries =>
    split at read
    next begun =>
      split at read
      next => cases read
      next body readRest =>
        obtain ⟨body, same, none⟩ := readBody_ends readRest
        refine ⟨body, ?_, none⟩
        rw [entries, List.map_cons, same, begun]
    next => cases read

/-- Only lines count. -/
theorem decodeChars_of_lines {first second : List Char}
    (same : Text.lines first = Text.lines second) : decodeChars first = decodeChars second := by
  unfold decodeChars numbered
  rw [same]

/-- No line before the footer begins like it. -/
theorem footer_not_prefix (program : Program) :
    ∀ text ∈ written program, ¬ footer <+: text := by
  intro text within begun
  rcases List.mem_cons.mp within with rfl | listed
  · revert begun
    decide
  · obtain ⟨instr, -, rfl⟩ := List.mem_map.mp listed
    -- every mnemonic is as long as the footer, so the footer would begin the mnemonic
    have every : ∀ mnemonic ∈ mnemonics,
        footer.length ≤ mnemonic.toList.length ∧ ¬ footer <+: mnemonic.toList := by decide
    obtain ⟨long, apart⟩ := every _ (mnemonic_mem instr)
    have first : instr.mnemonic.toList <+: line instr := by
      rw [← takeWhile_line]
      exact List.takeWhile_prefix _
    exact apart (List.prefix_of_prefix_length_le begun first long)

theorem footer_not_mem_written (program : Program) : footer ∉ written program :=
  fun within => footer_not_prefix program footer within List.prefix_rfl

theorem filledLines_unlines_append {texts : List (List Char)} (solid : ∀ text ∈ texts, Solid text)
    (rest : List Char) :
    filledLines (Text.unlines texts ++ rest) = texts ++ filledLines rest := by
  have trimmed : texts.map trim = texts :=
    (List.map_congr_left fun text within => (solid text within).trim).trans (List.map_id texts)
  have kept : texts.filter (· ≠ []) = texts := by
    refine List.filter_eq_self.mpr fun text within => decide_eq_true ?_
    obtain ⟨c, others, rfl, -⟩ := (solid text within).starts
    exact List.cons_ne_nil c others
  rw [filledLines, Text.lines_unlines_append solid, List.map_append, List.filter_append, trimmed,
    kept]
  rfl

/-- A part of a line counts as a line if it is not blank. -/
theorem mem_filledLines {part text : List Char} (unbroken : '\n' ∉ part)
    (within : text ∈ filledLines part) : text = trim part := by
  rw [filledLines, Text.lines_of_unbroken unbroken] at within
  split at within
  next => cases within
  next =>
    have listed := (List.mem_filter.mp within).1
    exact List.mem_singleton.mp listed

variable {program : Program}

/-- A text that is cut off has no footer, unless only the last line feed is missing. -/
theorem footer_of_cut {front rest : List Char} (cut : encodeChars program = front ++ rest)
    (cutOff : rest ≠ []) (ends : footer ∈ filledLines front) : rest = ['\n'] := by
  rw [encodeChars_eq_unlines] at cut
  obtain ⟨whole, part, remainder, others, texts, rfl, rfl⟩ := Text.cut_unlines cut cutOff
  have solid : ∀ text ∈ whole ++ (part ++ remainder) :: others, Solid text :=
    texts ▸ solid_written program
  have solidPart : Solid (part ++ remainder) :=
    solid _ (List.mem_append_right _ List.mem_cons_self)
  have unbroken : '\n' ∉ part :=
    fun within => solidPart.unbroken (List.mem_append_left _ within)
  rw [filledLines_unlines_append fun text within => solid text (List.mem_append_left _ within),
    List.mem_append] at ends
  -- the cut falls into the footer itself, or into a line before it
  rcases List.eq_nil_or_concat' others with rfl | ⟨between, last, rfl⟩
  · obtain ⟨rfl, same⟩ := List.append_inj' texts rfl
    rw [List.cons.injEq] at same
    have reached : footer <+: part := by
      rcases ends with early | ends
      · exact absurd early (footer_not_mem_written program)
      · rw [mem_filledLines unbroken ends]
        exact solidPart.trim_prefix
    have long := reached.length_le
    have short : part.length + remainder.length = footer.length := by
      rw [same.1, List.length_append]
    have nothing : remainder = [] := List.length_eq_zero_iff.mp (by omega)
    rw [nothing]
    rfl
  · rw [← List.cons_append, ← List.append_assoc] at texts
    obtain ⟨before, -⟩ := List.append_inj' texts rfl
    have inside {text : List Char} (listed : text ∈ whole ++ (part ++ remainder) :: between) :
        ¬ footer <+: text := footer_not_prefix program text (before ▸ listed)
    exfalso
    rcases ends with early | ends
    · exact inside (List.mem_append_left _ early) List.prefix_rfl
    · have reached : footer <+: part ++ remainder := by
        rw [mem_filledLines unbroken ends]
        exact solidPart.trim_prefix.trans (List.prefix_append part remainder)
      exact inside (List.mem_append_right _ List.mem_cons_self) reached

theorem exists_error_of_forall {α : Type} {result : Except CodeError α}
    (fails : ∀ value, result ≠ .ok value) : ∃ error, result = .error error := by
  cases result with
  | error error => exact ⟨error, rfl⟩
  | ok value => exact absurd rfl (fails value)

theorem decodeChars_cut {front rest : List Char} (cut : encodeChars program = front ++ rest)
    (cutOff : rest ≠ []) (more : rest ≠ ['\n']) : ∃ error, decodeChars front = .error error := by
  refine exists_error_of_forall fun other read => more ?_
  obtain ⟨body, framed, -⟩ := decodeChars_frames read
  refine footer_of_cut cut cutOff ?_
  rw [framed, ← List.cons_append]
  exact List.mem_append_right _ List.mem_cons_self

theorem decodeChars_unfed {front : List Char} (cut : encodeChars program = front ++ ['\n']) :
    decodeChars front = decodeChars (encodeChars program) := by
  have solid := solid_written program
  have front_eq : front = Text.unlines (written program) ++ footer := by
    rw [encodeChars_eq_unlines, Text.unlines_append, Text.unlines_cons, Text.unlines_nil,
      ← List.append_assoc] at cut
    exact (List.append_inj' cut rfl).1.symm
  refine decodeChars_of_lines ?_
  rw [front_eq, Text.lines_unlines_append fun text within => solid text
    (List.mem_append_left _ within), lines_encodeChars]
  rfl

theorem decodeChars_trailing {extra : List Char} {c : Char} (within : c ∈ extra)
    (filled : isBlank c = false) : ∃ error, decodeChars (encodeChars program ++ extra) =
      .error error := by
  refine exists_error_of_forall fun other read => ?_
  obtain ⟨body, framed, single⟩ := decodeChars_frames read
  rw [encodeChars_eq_unlines, filledLines_unlines_append (solid_written program), written,
    List.cons_append, List.cons_append, List.cons.injEq] at framed
  obtain ⟨text, listed, inside⟩ := Text.exists_mem_lines within filled
  have more : trim text ∈ filledLines extra := by
    refine List.mem_filter.mpr
      ⟨List.mem_map.mpr ⟨text, listed, rfl⟩, decide_eq_true fun blank => ?_⟩
    have white := Text.trim_eq_nil_iff.mp blank c inside
    rw [filled] at white
    cases white
  rcases List.eq_nil_or_concat' (filledLines extra) with none | ⟨front, last, same⟩
  · rw [none] at more
    cases more
  · rw [same, ← List.append_assoc] at framed
    obtain ⟨rfl, -⟩ := List.append_inj' framed.2 rfl
    exact single (List.mem_append_left _ (List.mem_append_right _ List.mem_cons_self))

end Listing

namespace Program

/-- A proper beginning of the text of a program is refused, wherever the cut falls; only the last
line feed may be missing. The text is refused as well if anything but white space follows it. -/
theorem decode_truncated (program : Program) :
    (∀ front rest : String, program.encode = front ++ rest → rest ≠ "" → rest ≠ "\n" →
      ∃ error, decode front = .error error) ∧
    (∀ front : String, program.encode = front ++ "\n" → decode front = decode program.encode) ∧
    ∀ extra : String, (∃ c ∈ extra.toList, isBlank c = false) →
      ∃ error, decode (program.encode ++ extra) = .error error := by
  have chars : program.encode.toList = Listing.encodeChars program := String.toList_ofList
  refine ⟨fun front rest cut cutOff more => ?_, fun front cut => ?_,
    fun extra ⟨c, within, filled⟩ => ?_⟩
  · rw [cut, String.toList_append] at chars
    refine Listing.decodeChars_cut chars.symm ?_ ?_
    · exact fun empty => cutOff (String.toList_eq_nil_iff.mp empty)
    · exact fun fed => more (String.toList_injective fed)
  · unfold decode
    rw [chars]
    rw [cut, String.toList_append] at chars
    exact Listing.decodeChars_unfed chars.symm
  · unfold decode
    rw [String.toList_append, chars]
    exact Listing.decodeChars_trailing within filled

/-- Cuts inside an escape and inside a number, which leave a footer in a string and a line that can
be read; and a second footer. -/
theorem decode_truncated_escape :
    let program : Program := [.text "\nend", .const (.nat 12)]
    program.encode = "program v1\ntext \"\\" ++ "nend\"\nconst 12\nend\n" ∧
    program.encode = "program v1\ntext \"\\nend\"\nconst 1" ++ "2\nend\n" ∧
    (∃ error, decode "program v1\ntext \"\\" = .error error) ∧
    (∃ error, decode "program v1\ntext \"\\nend\"\nconst 1" = .error error) ∧
    ∃ error, decode (program.encode ++ " end") = .error error := by
  intro program
  have escape : program.encode = "program v1\ntext \"\\" ++ "nend\"\nconst 12\nend\n" := by
    decide +kernel
  have number : program.encode = "program v1\ntext \"\\nend\"\nconst 1" ++ "2\nend\n" := by
    decide +kernel
  obtain ⟨cut, -, trailing⟩ := decode_truncated program
  exact ⟨escape, number, cut _ _ escape (by decide) (by decide),
    cut _ _ number (by decide) (by decide), trailing _ ⟨'e', by decide, by decide⟩⟩

end Program

end QueryTemplate
