import QueryTemplate.Proofs.Builder.Sequences
import QueryTemplate.Proofs.Compilation.Provenance
import QueryTemplate.Proofs.Number.Scaling

set_option autoImplicit false

/- Placeholders as they are read from a statement: `$` and the longest run of digits after it. Raw
text is written as it is, so digits that begin the text after a placeholder run into its number. -/

namespace QueryTemplate

open Text (byteLength)
open Builder (placeholderText)

namespace Decimal

/-- A run of digits goes no further than a text that ends with anything else. -/
theorem takeWhile_append_of_stops (text : List Char) {after : List Char} (stops : Stops after) :
    (text ++ after).takeWhile Char.isDigit = text.takeWhile Char.isDigit := by
  have nothing : ([] ++ after).takeWhile Char.isDigit = [] := takeWhile_digits nofun stops
  rw [List.nil_append] at nothing
  rw [List.takeWhile_append, nothing, List.append_nil]
  split
  next whole =>
    exact ((List.takeWhile_prefix Char.isDigit).eq_of_length whole).symm
  next => rfl

theorem takeWhile_eq_nil_iff {text : List Char} :
    text.takeWhile Char.isDigit = [] ↔ Stops text := by
  cases text with
  | nil => exact iff_of_true rfl nofun
  | cons c rest =>
      cases digit : c.isDigit <;> simp [Stops, digit]

/-- Digits behind the numeral of a positive number change its value. -/
theorem readNat_natText_append {n : Nat} (positive : 0 < n) (more : List Char) :
    readNat (natText n ++ more) = n ↔ more = [] := by
  have onto : readNat (natText n ++ more) = readOnto n more := by
    conv => rhs; rw [← readNat_natText n]
    simp only [readNat, readOnto, List.foldl_append]
  rw [onto]
  cases more with
  | nil => exact iff_of_true rfl rfl
  | cons c rest =>
      have larger := NumberText.le_readOnto n (c :: rest)
      have power := tenPow_pos rest.length
      rw [List.length_cons, tenPow_succ] at larger
      have bound := Nat.mul_le_mul_left n (Nat.mul_le_mul_left 10 power)
      refine iff_of_false ?_ (List.cons_ne_nil c rest)
      omega

end Decimal

namespace Segments

/-- The raw text right after the placeholder of the parameter at an index. -/
def textAfter (segments : Segments) (index : Nat) : List Char :=
  (segments.bound[index + 1]?.map (·.1)).getD segments.rest

/-- After a placeholder comes its text, and then the end or another placeholder. -/
theorem placed_before (start index : Nat) (bound : List (List Char × Json)) (rest : List Char)
    {ahead place : Nat} (found : (placesFrom start index bound)[ahead]? = some place) :
    ∃ front after, statementFrom index bound ++ rest =
        front ++ (placeholderText (index + ahead) ++ (textAfter ⟨bound, rest⟩ ahead ++ after)) ∧
      start + byteLength front = place ∧ Decimal.Stops after := by
  induction bound generalizing start index ahead with
  | nil => cases found
  | cons entry bound ih =>
      obtain ⟨text, value⟩ := entry
      cases ahead with
      | zero =>
          cases found
          cases bound with
          | nil => exact ⟨text, [], by simp [statementFrom, textAfter], rfl, nofun⟩
          | cons next more =>
              obtain ⟨between, other⟩ := next
              refine ⟨text, placeholderText (index + 1) ++ statementFrom (index + 2) more ++ rest,
                by simp [statementFrom, textAfter], rfl, ?_⟩
              rintro c ⟨⟩
              decide
      | succ ahead =>
          obtain ⟨front, after, whole, starts, stops⟩ := ih _ _ found
          refine ⟨text ++ placeholderText index ++ front, after, ?_, ?_, stops⟩
          · rw [statementFrom, List.append_assoc, whole, Nat.add_right_comm index 1,
              ← Nat.add_assoc]
            simp [textAfter]
          · simp only [Text.byteLength_append]
            omega

end Segments

/-- The longest run of digits after a `$` that stands at a byte of the statement. -/
def Builder.numeralAt? (builder : Builder) (place : Nat) : Option (List Char) :=
  match Text.splitAt? place builder.statement with
  | some (_, '$' :: rest) => some (rest.takeWhile Char.isDigit)
  | _ => none

/-- There is a placeholder for each parameter. It is read as its own number with the digits behind
that begin the raw text after it, so it stands for its own parameter just when that text begins with
none. -/
structure Builder.Legible (builder : Builder) (segments : Segments) : Prop where
  rendered : builder = segments.render builder.name
  counted : builder.placeholders.length = builder.parameters.length
  numeral : ∀ (index place : Nat), builder.placeholders[index]? = some place →
    builder.numeralAt? place =
      some (Decimal.natText (index + 1) ++ (segments.textAfter index).takeWhile Char.isDigit)
  own : ∀ (index place : Nat), builder.placeholders[index]? = some place →
    ((builder.numeralAt? place).map Decimal.readNat = some (index + 1) ↔
      Decimal.Stops (segments.textAfter index))

namespace Segments

variable (segments : Segments) (name : Option String)

theorem numeralAt?_render {index place : Nat}
    (found : (segments.render name).placeholders[index]? = some place) :
    (segments.render name).numeralAt? place =
      some (Decimal.natText (index + 1) ++ (segments.textAfter index).takeWhile Char.isDigit) := by
  obtain ⟨front, after, whole, starts, stops⟩ :=
    placed_before 0 0 segments.bound segments.rest found
  rw [Nat.zero_add] at whole starts
  have cut : Text.splitAt? place (segments.render name).statement = some (front,
      '$' :: (Decimal.natText (index + 1) ++ (segments.textAfter index ++ after))) :=
    Text.splitAt?_eq_some.mpr ⟨whole, starts⟩
  simp only [Builder.numeralAt?, cut]
  rw [List.takeWhile_append_of_pos (Decimal.allDigits_natText (index + 1)),
    Decimal.takeWhile_append_of_stops _ stops]

theorem legible_render : (segments.render name).Legible segments where
  rendered := rfl
  counted := (tracked_render segments name).counted
  numeral _ _ found := numeralAt?_render segments name found
  own index place found := by
    rw [numeralAt?_render segments name found, Option.map_some, Option.some.injEq,
      Decimal.readNat_natText_append (Nat.succ_pos index), Decimal.takeWhile_eq_nil_iff]

end Segments

/-- A tag that makes builders out of those it is given, with the operations of builders. -/
def TagRunner.Composes (run : TagRunner) : Prop := run.Faithful fun _ => True

theorem TagRunner.composes_of_mem_catalog {name : String} {run : TagRunner}
    (listed : .tagRunner name run ∈ catalog) : run.Composes :=
  faithful_of_mem_catalog listed

/-- Whatever was done to a builder, each of its placeholders is read as its number and the digits
that begin the raw text after it. The same goes for whatever an execution exports. -/
theorem Builder.placeholders_legible :
    (∀ steps, ∃ outlines, Outline.operations.run steps = some outlines ∧
      operations.run steps = some (outlines.map Outline.render) ∧
      ∀ outline ∈ outlines, outline.render.Legible (Segments.ofList outline.segments)) ∧
    ∀ (runtime : RuntimeEnvironment),
      (∀ name run, Table.get? runtime.tags name = some run → run.Composes) →
      ∀ strict fuel program data builder,
        Machine.runProgram runtime strict fuel program data = .finished (some builder) →
        ∃ segments, builder.Legible segments := by
  constructor
  · intro steps
    obtain ⟨outlines, ran⟩ := Outline.run_isSome steps
    refine ⟨outlines, ran, by rw [operations_shows.run, ran, Option.map_some], ?_⟩
    intro outline _
    rw [Segments.render_ofList]
    exact Segments.legible_render _ _
  · intro runtime composes strict fuel program data builder finished
    cases data with
    | object members =>
        have faithful : Setting.Authored (fun _ => True) ⟨program, runtime, strict, members⟩ :=
          { texts := fun _ _ => trivial, tags := composes }
        obtain ⟨segments, whole, -⟩ := Machine.Authored.start.run faithful finished
        rw [whole]
        exact ⟨segments, Segments.legible_render segments builder.name⟩
    | _ => cases finished

/-- Text without digits behind a placeholder, in a statement that a request exports. -/
theorem Builder.placeholders_legible_request :
    ∃ envs builder segments, Environments.ofExtensions catalog = .ok envs ∧
      Machine.runProgram envs.runtime true 7 [.capture, .text " x = ", .const (.nat 7), .emit,
          .text " + 1", .const (.string "a"), .callTag "req" 1 [] true] (.object []) =
        .finished (some builder) ∧
      builder.Legible segments ∧ builder.statement = "x = $1 + 1".toList ∧
      (builder.numeralAt? 4).map Decimal.readNat = some 1 := by
  have finishes : (Environments.ofExtensions catalog).toOption.any (fun envs =>
      match Machine.runProgram envs.runtime true 7 [.capture, .text " x = ", .const (.nat 7), .emit,
          .text " + 1", .const (.string "a"), .callTag "req" 1 [] true] (.object []) with
      | .finished (some builder) => builder.statement == "x = $1 + 1".toList &&
          (builder.numeralAt? 4).map Decimal.readNat == some 1
      | .finished none => false
      | .failed _ => false
      | .outOfFuel => false) = true := by decide +kernel
  obtain ⟨envs, loads, finishes⟩ := (Option.any_eq_true ..).mp finishes
  have loads := eq_ok_iff_toOption.mpr loads
  have composes (name : String) (run : TagRunner)
      (found : Table.get? envs.runtime.tags name = some run) : run.Composes :=
    TagRunner.composes_of_mem_catalog (Environments.tags_ofExtensions loads found)
  split at finishes
  next builder finished =>
    obtain ⟨segments, legible⟩ :=
      placeholders_legible.2 envs.runtime composes true 7 _ _ builder finished
    rw [Bool.and_eq_true, beq_iff_eq, beq_iff_eq] at finishes
    exact ⟨envs, builder, segments, loads, finished, legible, finishes⟩
  all_goals cases finishes

/-- Raw text that begins with a digit runs into the placeholder before it. -/
theorem Builder.placeholder_runs_on :
    ∃ builder, operations.run [.named "q", .bind 0 (.nat 5), .push 0 "0".toList] = some [builder] ∧
      builder.parameters = [.nat 5] ∧ builder.placeholders = [0] ∧
      builder.statement = "$10".toList ∧
      builder.numeralAt? 0 = some "10".toList ∧
      (builder.numeralAt? 0).map Decimal.readNat ≠ some 1 :=
  ⟨_, rfl, rfl, rfl, by decide, by decide, by decide⟩

end QueryTemplate
