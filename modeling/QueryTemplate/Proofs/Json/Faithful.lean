import Mathlib.Algebra.Group.Int.Defs
import QueryTemplate.Proofs.Json.RoundTrip
import QueryTemplate.Proofs.Tables

set_option autoImplicit false

/- The values that their own text is read as: arrays and objects are not nested too deep, the
members of objects are in order, and the text of each number is read as that number. -/

namespace QueryTemplate

theorem Number.reread?_int (value : Int) :
    (Number.int value).reread? = some (.int value) ↔ -(2 ^ 63) ≤ value ∧ value < 2 ^ 64 := by
  have largest : NumberText.significandMax = 2 ^ 64 - 1 := rfl
  have half : twoPow 63 = 2 ^ 63 := rfl
  simp only [reread?, numeral, NumberText.toNumber?, Decimal.readNat_natText, largest, half,
    decide_eq_true_eq]
  split
  next negative =>
    split
    next range =>
      simp only [Option.some.injEq, reduceCtorEq, false_iff]
      omega
    next =>
      split
      next => simp only [Option.some.injEq, int.injEq]; omega
      next =>
        simp only [Option.map_eq_some_iff, reduceCtorEq, and_false, exists_false, false_iff]
        omega
  next =>
    split
    next => simp only [Option.some.injEq, int.injEq]; omega
    next =>
      simp only [Option.map_eq_some_iff, reduceCtorEq, and_false, exists_false, false_iff]
      omega

namespace Json

mutual

/-- No more than `depth` arrays and objects are open at once, members are in order, and each number
is what its own text is read as. -/
def Faithful (depth : Nat) : Json → Prop
  | null => True
  | bool _ => True
  | number value => value.reread? = some value
  | string _ => True
  | array items =>
    match depth with
    | 0 => False
    | inner + 1 => FaithfulItems inner items
  | object members =>
    match depth with
    | 0 => False
    | inner + 1 => Table.Sorted members ∧ FaithfulMembers inner members

def FaithfulItems (depth : Nat) : List Json → Prop
  | [] => True
  | item :: items => item.Faithful depth ∧ FaithfulItems depth items

def FaithfulMembers (depth : Nat) : List (String × Json) → Prop
  | [] => True
  | (_, value) :: members => value.Faithful depth ∧ FaithfulMembers depth members

end

theorem membersToJson?_cons (depth : Nat) (name : String) (document : Document)
    (members : List (Option String × Document)) :
    Document.membersToJson? depth ((some name, document) :: members) =
      match document.toJson? depth, Document.membersToJson? depth members with
      | some value, some values => some ((name, value) :: values)
      | _, _ => none := by
  cases head : document.toJson? depth <;> cases tail : Document.membersToJson? depth members <;>
    simp only [Document.membersToJson?, head, tail]

/-- What is read for a list of members has the same names in the same order. -/
theorem keys_membersToJson? {depth : Nat} {members values : List (String × Json)}
    (read : Document.membersToJson? depth (memberDocuments members) = some values) :
    Table.keys values = Table.keys members := by
  induction members generalizing values with
  | nil =>
      cases read
      rfl
  | cons member members ih =>
      obtain ⟨name, value⟩ := member
      rw [memberDocuments, membersToJson?_cons] at read
      split at read
      next other others _ tail =>
        cases read
        rw [Table.keys_cons, Table.keys_cons, ih tail]
      next => cases read

mutual

theorem toJson?_document (value : Json) (depth : Nat) :
    value.document.toJson? depth = some value ↔ value.Faithful depth := by
  match value with
  | null => exact iff_of_true rfl trivial
  | bool _ => exact iff_of_true rfl trivial
  | string _ => exact iff_of_true rfl trivial
  | number value =>
      rw [document, Document.toJson?, Faithful, Option.map_eq_some_iff]
      simp only [number.injEq, exists_eq_right]
  | array items =>
      match depth with
      | 0 => exact iff_of_false (fun read => nomatch read) id
      | inner + 1 =>
          rw [document, Document.toJson?, Faithful, ← itemsToJson?_documents items inner,
            Option.map_eq_some_iff]
          simp only [array.injEq, exists_eq_right]
  | object members =>
      match depth with
      | 0 => exact iff_of_false (fun read => nomatch read) id
      | inner + 1 =>
          rw [document, Document.toJson?, Faithful, ← membersToJson?_documents members inner,
            Option.map_eq_some_iff]
          constructor
          · rintro ⟨values, read, same⟩
            have whole : Table.ofList values = members := object.inj same
            have sorted := Table.sorted_ofList values
            rw [whole] at sorted
            -- the names that were read are in order already, so the table is the list
            have inOrder : Table.Sorted values := by
              rw [Table.Sorted, keys_membersToJson? read]
              exact sorted
            rw [Table.ofList_sorted inOrder] at whole
            rw [whole] at read
            exact ⟨sorted, read⟩
          · rintro ⟨sorted, read⟩
            exact ⟨members, read, congrArg object (Table.ofList_sorted sorted)⟩
termination_by sizeOf value

theorem itemsToJson?_documents (items : List Json) (depth : Nat) :
    Document.itemsToJson? depth (documents items) = some items ↔ FaithfulItems depth items := by
  match items with
  | [] => exact iff_of_true rfl trivial
  | item :: items =>
      rw [documents, Document.itemsToJson?, FaithfulItems, ← toJson?_document item depth,
        ← itemsToJson?_documents items depth]
      split
      next first others head tail =>
        simp only [head, tail, Option.some.injEq, List.cons.injEq]
      next missing =>
        refine iff_of_false (fun read => nomatch read) fun ⟨head, tail⟩ => missing _ _ head tail
termination_by sizeOf items

theorem membersToJson?_documents (members : List (String × Json)) (depth : Nat) :
    Document.membersToJson? depth (memberDocuments members) = some members ↔
      FaithfulMembers depth members := by
  match members with
  | [] => exact iff_of_true rfl trivial
  | (name, value) :: members =>
      rw [memberDocuments, membersToJson?_cons, FaithfulMembers, ← toJson?_document value depth,
        ← membersToJson?_documents members depth]
      split
      next other others head tail =>
        simp only [head, tail, Option.some.injEq, List.cons.injEq, Prod.mk.injEq, true_and]
      next missing =>
        refine iff_of_false (fun read => nomatch read) fun ⟨head, tail⟩ => missing _ _ head tail
termination_by sizeOf members

end

/-- The values that come back from their text. -/
theorem ofText?_print_eq_self (value : Json) :
    ofText? value.print = some value ↔ value.Faithful maxDepth := by
  rw [ofText?_print, toJson?_document]

end Json

end QueryTemplate
