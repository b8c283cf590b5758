import Mathlib.Algebra.Group.Nat.Defs
import QueryTemplate.Program.Listing
import QueryTemplate.Proofs.Json.OneLine
import QueryTemplate.Proofs.Json.RoundTrip

set_option autoImplicit false

/- The operands of instructions: each fits into a line, and is read as what was written, constants
as their text is read. -/

namespace QueryTemplate

open Json (Document printString)
open Text (Solid)

namespace Instr

/-- The numbers in an operand. -/
def counts : Instr → List Nat
  | filter _ _ argc => [argc]
  | jump target => [target]
  | jumpIfFalse target => [target]
  | jumpIfFalseOrPop target => [target]
  | jumpIfTrueOrPop target => [target]
  | iterNext _ exit => [exit]
  | callTag _ argc _ _ => [argc]
  | _ => []

/-- No number in the operand takes more than 64 bits. -/
def Fits (instr : Instr) : Prop := ∀ count ∈ instr.counts, count < 2 ^ 64

/-- The instruction that the line of an instruction is read as. -/
def reread? : Instr → Option Instr
  | const value => (Json.ofText? value.print).map const
  | instr => some instr

end Instr

namespace Listing

/-- A text that is read as a document wherever the document can end. -/
def Spells (chars : List Char) (document : Document) : Prop :=
  ∀ rest, NumberText.Closed rest → Document.Reads (chars ++ rest) document rest

theorem Spells.ofText? {chars : List Char} {document : Document} (spelled : Spells chars document) :
    Document.ofText? chars = some document := by
  have found := spelled [] NumberText.closed_nil
  rw [List.append_nil] at found
  obtain ⟨less, found⟩ := found
  simp only [Document.ofText?, found]
  rfl

theorem spells_string (text : String) : Spells (printString text) (.string (some text)) :=
  fun _ _ => Document.reads_string text

theorem spells_json (value : Json) : Spells value.print value.document :=
  fun _ closed => Json.reads_print value closed

theorem spells_bool (value : Bool) : Spells (boolText value) (.bool value) := by
  cases value with
  | true => exact fun _ _ => Document.reads_true
  | false => exact fun _ _ => Document.reads_false

theorem toNumber?_natText {n : Nat} (fits : n < 2 ^ 64) :
    (Number.int n).reread? = some (.int n) := by
  have bounded : n ≤ NumberText.significandMax := by
    change n ≤ 2 ^ 64 - 1
    omega
  have sign : decide ((n : Int) < 0) = false := decide_eq_false (by omega)
  simp only [Number.reread?, Number.numeral, NumberText.toNumber?, sign, Int.natAbs_natCast,
    Decimal.readNat_natText, Bool.false_eq_true, ↓reduceIte, bounded]

theorem spells_nat {n : Nat} (fits : n < 2 ^ 64) :
    Spells (Decimal.natText n) (.number (some (.int n))) := by
  have spelled := spells_json (Json.nat n)
  rw [Json.nat, Json.document, toNumber?_natText fits] at spelled
  have same : (Json.number (.int n)).print = Decimal.natText n := by
    have sign : ¬ (n : Int) < 0 := by omega
    simp only [Json.print, Number.print, intText, sign, ↓reduceIte, Int.natAbs_natCast]
  rwa [same] at spelled

/-- The members of a record after the first, up to its closing brace. -/
theorem readsMembers_record (name : String) (value : List Char) (document : Document)
    (members : List (String × List Char × Document)) (spelled : Spells value document)
    (all : ∀ member ∈ members, Spells member.2.1 member.2.2) (rest : List Char) :
    Document.ReadsMembers
      (printString name ++ ':' :: value ++
        members.flatMap (fun member => ',' :: printString member.1 ++ ':' :: member.2.1) ++
        '}' :: rest)
      ((some name, document) :: members.map fun member => (some member.1, member.2.2)) rest := by
  induction members generalizing name value document with
  | nil =>
      have head := spelled ('}' :: rest) (by intro c first; cases first; decide)
      simp only [List.flatMap_nil, List.append_nil, List.append_assoc, List.cons_append]
      exact Document.readsMembers_last head
  | cons member members ih =>
      obtain ⟨next, other, inner⟩ := member
      have tail := ih next other inner (all _ List.mem_cons_self)
        fun member within => all member (List.mem_cons_of_mem _ within)
      simp only [List.flatMap_cons, List.append_assoc, List.cons_append] at tail ⊢
      exact Document.readsMembers_cons (spelled _ (by intro c first; cases first; decide)) tail

theorem spells_record (name : String) (value : List Char) (document : Document)
    (members : List (String × List Char × Document)) (spelled : Spells value document)
    (all : ∀ member ∈ members, Spells member.2.1 member.2.2) :
    Spells (record ((name, value) :: members.map fun member => (member.1, member.2.1)))
      (.object ((some name, document) :: members.map fun member => (some member.1, member.2.2))) := by
  intro rest _
  have inner := readsMembers_record name value document members spelled all rest
  have whole := Document.reads_object (fun after closing => by cases closing) inner
  simp only [record, List.flatMap_map, List.append_assoc, List.cons_append, List.nil_append] at whole ⊢
  exact whole

theorem withOperand_spelled {α : Type} {decode : Document → Option α} {chars : List Char}
    {document : Document} {value : α} (spelled : Spells chars document)
    (decoded : decode document = some value) (mnemonic : String) :
    withOperand mnemonic (some chars) decode = .ok value := by
  simp only [withOperand, read?, spelled.ofText?, Option.bind_some, decoded]

theorem withOperand_string (mnemonic text : String) :
    withOperand mnemonic (some (printString text)) string? = .ok text :=
  withOperand_spelled (spells_string text) (show string? (.string (some text)) = some text from rfl)
    mnemonic

theorem withOperand_nat (mnemonic : String) {n : Nat} (fits : n < 2 ^ 64) :
    withOperand mnemonic (some (Decimal.natText n)) nat? = .ok n := by
  refine withOperand_spelled (spells_nat fits) ?_ mnemonic
  have nonneg : (0 : Int) ≤ n := by omega
  simp only [nat?, nonneg, ↓reduceIte, Int.toNat_natCast]

theorem withOperand_json (mnemonic : String) (value : Json) :
    withOperand mnemonic (some value.print) (Document.toJson? Json.maxDepth) =
      match Json.ofText? value.print with
      | some other => .ok other
      | none => .error .malformed := by
  have taken : read? (Document.toJson? Json.maxDepth) value.print = Json.ofText? value.print := rfl
  simp only [withOperand, taken]
  cases Json.ofText? value.print <;> rfl

theorem ofSymbol?_symbol (op : BinaryOp) : BinaryOp.ofSymbol? op.symbol = some op := by
  cases op <;> decide

theorem withOperand_filter (mnemonic name : String) {argc : Nat} (fits : argc < 2 ^ 64) :
    withOperand mnemonic
      (some (record [("name", printString name), ("argc", Decimal.natText argc)])) filterOperand? =
        .ok (name, argc) := by
  have decoded : filterOperand? (.object [(some "name", .string (some name)),
      (some "argc", .number (some (.int argc)))]) = some (name, argc) := rfl
  refine withOperand_spelled (spells_record "name" _ _
    [("argc", Decimal.natText argc, .number (some (.int argc)))] (spells_string name) ?_) decoded
      mnemonic
  intro member within
  rw [List.mem_singleton.mp within]
  exact spells_nat fits

theorem withOperand_iter (mnemonic var : String) {exit : Nat} (fits : exit < 2 ^ 64) :
    withOperand mnemonic
      (some (record [("var", printString var), ("exit", Decimal.natText exit)])) iterOperand? =
        .ok (var, exit) := by
  have decoded : iterOperand? (.object [(some "var", .string (some var)),
      (some "exit", .number (some (.int exit)))]) = some (var, exit) := rfl
  refine withOperand_spelled (spells_record "var" _ _
    [("exit", Decimal.natText exit, .number (some (.int exit)))] (spells_string var) ?_) decoded
      mnemonic
  intro member within
  rw [List.mem_singleton.mp within]
  exact spells_nat fits

theorem strings?_document (texts : List String) :
    strings? (Json.strings texts).document = some texts := by
  change (Json.documents (texts.map Json.string)).mapM string? = some texts
  induction texts with
  | nil => rfl
  | cons text texts ih =>
      simp only [List.map_cons, Json.documents, List.mapM_cons, ih]
      rfl

theorem withOperand_tag (mnemonic name : String) {argc : Nat} (kwargs : List String)
    (hasBody : Bool) (fits : argc < 2 ^ 64) :
    withOperand mnemonic
      (some (record [("name", printString name), ("argc", Decimal.natText argc),
        ("kwargs", (Json.strings kwargs).print), ("body", boolText hasBody)])) tagOperand? =
        .ok (.callTag name argc kwargs hasBody) := by
  have decoded : tagOperand? (.object [(some "name", .string (some name)),
      (some "argc", .number (some (.int argc))), (some "kwargs", (Json.strings kwargs).document),
      (some "body", .bool hasBody)]) = some (.callTag name argc kwargs hasBody) := by
    have fields : fields? ["name", "argc", "kwargs", "body"] (.object
        [(some "name", .string (some name)), (some "argc", .number (some (.int argc))),
          (some "kwargs", (Json.strings kwargs).document), (some "body", .bool hasBody)]) =
        some [.string (some name), .number (some (.int argc)), (Json.strings kwargs).document,
          .bool hasBody] := rfl
    simp only [tagOperand?, fields, bind, Option.bind, strings?_document]
    rfl
  refine withOperand_spelled (spells_record "name" _ _
    [("argc", Decimal.natText argc, .number (some (.int argc))),
      ("kwargs", (Json.strings kwargs).print, (Json.strings kwargs).document),
      ("body", boolText hasBody, .bool hasBody)] (spells_string name) ?_) decoded mnemonic
  intro member within
  simp only [List.mem_cons, List.not_mem_nil, or_false] at within
  rcases within with rfl | rfl | rfl
  · exact spells_nat fits
  · exact spells_json _
  · exact spells_bool hasBody

/-- What is read from the operand of an instruction. -/
theorem instr?_operand {instr : Instr} (fits : instr.Fits) :
    instr? instr.mnemonic (operand? instr) =
      some (match instr.reread? with
        | some other => .ok other
        | none => .error .malformed) := by
  cases instr with
  | text content => simp only [Instr.mnemonic, operand?, instr?, withOperand_string]; rfl
  | const value =>
      simp only [Instr.mnemonic, operand?, instr?, withOperand_json, Instr.reread?]
      cases Json.ofText? value.print <;> rfl
  | load name => simp only [Instr.mnemonic, operand?, instr?, withOperand_string]; rfl
  | attr name => simp only [Instr.mnemonic, operand?, instr?, withOperand_string]; rfl
  | negate => rfl
  | binary op =>
      simp only [Instr.mnemonic, operand?, instr?, withOperand_string, ofSymbol?_symbol]
      rfl
  | filter awaited name argc =>
      have inside : argc < 2 ^ 64 := fits argc List.mem_cons_self
      cases awaited <;>
        simp only [Instr.mnemonic, operand?, instr?, withOperand_filter _ name inside] <;> rfl
  | emit => rfl
  | assign name => simp only [Instr.mnemonic, operand?, instr?, withOperand_string]; rfl
  | jump target =>
      simp only [Instr.mnemonic, operand?, instr?, withOperand_nat _ (fits _ List.mem_cons_self)]
      rfl
  | jumpIfFalse target =>
      simp only [Instr.mnemonic, operand?, instr?, withOperand_nat _ (fits _ List.mem_cons_self)]
      rfl
  | jumpIfFalseOrPop target =>
      simp only [Instr.mnemonic, operand?, instr?, withOperand_nat _ (fits _ List.mem_cons_self)]
      rfl
  | jumpIfTrueOrPop target =>
      simp only [Instr.mnemonic, operand?, instr?, withOperand_nat _ (fits _ List.mem_cons_self)]
      rfl
  | iterStart => rfl
  | iterNext var exit =>
      simp only [Instr.mnemonic, operand?, instr?,
        withOperand_iter _ var (fits _ List.mem_cons_self)]
      rfl
  | capture => rfl
  | callTag name argc kwargs hasBody =>
      simp only [Instr.mnemonic, operand?, instr?,
        withOperand_tag _ name kwargs hasBody (fits _ List.mem_cons_self)]
      rfl
  | deliver => rfl

end Listing

end QueryTemplate
