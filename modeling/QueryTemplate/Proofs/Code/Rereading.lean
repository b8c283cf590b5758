import QueryTemplate.Proofs.Code.Contents
import QueryTemplate.Proofs.Number.Rereading
import QueryTemplate.Proofs.Program.RoundTrip
import QueryTemplate.Proofs.Reading.Templates
import QueryTemplate.Proofs.Template.Revision

set_option autoImplicit false

/- The code of a template is read back as the code of the same template with other literals. -/

namespace QueryTemplate

namespace LiteralsInRange

@[simp] theorem append_iff (first second : List Element) :
    LiteralsInRange (first ++ second) ↔ LiteralsInRange first ∧ LiteralsInRange second := by
  constructor
  · intro all
    exact ⟨fun value span within => all value span (List.mem_append_left _ within),
      fun value span within => all value span (List.mem_append_right _ within)⟩
  · exact fun ⟨front, back⟩ => front.append back

theorem tail {element : Element} {elements : List Element}
    (all : LiteralsInRange (element :: elements)) : LiteralsInRange elements :=
  fun value span within => all value span (List.mem_cons_of_mem _ within)

end LiteralsInRange

/-- A program is read back as another one. -/
def Rereads (program other : Program) : Prop := program.mapM Instr.reread? = some other

namespace Rereads

variable {program other : Program}

theorem nil : Rereads [] [] := rfl

theorem cons {instr same : Instr} (head : instr.reread? = some same)
    (tail : Rereads program other) : Rereads (instr :: program) (same :: other) := by
  rw [Rereads, List.mapM_cons, head, tail]
  rfl

theorem append {program' other' : Program} (first : Rereads program other)
    (second : Rereads program' other') : Rereads (program ++ program') (other ++ other') := by
  rw [Rereads, List.mapM_append, first, second]
  rfl

theorem length (rereads : Rereads program other) : other.length = program.length :=
  (Listing.mapM_reread rereads).2

end Rereads

/-- The literals of one revision are read back as those of another. -/
structure Revision.RereadAs (r r' : Revision) : Prop where
  literal : ∀ value, value.InRange →
    (Instr.const (r.literal value).toJson).reread? = some (.const (r'.literal value).toJson)
  awaited : r.awaited = r'.awaited

section Code

variable {r r' : Revision}

mutual

theorem Expr.rereads_code (same : r.RereadAs r') (expr : Expr) (base : Nat)
    (inRange : LiteralsInRange expr.elements) :
    Rereads ((expr.revise r).code base) ((expr.revise r').code base) := by
  match expr with
  | .literal value span =>
      exact .cons (same.literal value (inRange value span List.mem_cons_self)) .nil
  | .var _ _ => exact .cons rfl .nil
  | .attr target _ _ =>
      exact (Expr.rereads_code same target base inRange.tail).append (.cons rfl .nil)
  | .filter awaited target name _ args _ =>
      obtain ⟨first, rest⟩ := (LiteralsInRange.append_iff _ _).mp inRange.tail
      have head := Expr.rereads_code same target base first
      simp only [Expr.revise, Expr.code, head.length, same.awaited, Expr.listRevise_eq_map,
        List.length_map]
      rw [← Expr.listRevise_eq_map, ← Expr.listRevise_eq_map]
      exact (head.append (Expr.rereads_listCode same args _ rest)).append (.cons rfl .nil)
  | .negate operand _ =>
      exact (Expr.rereads_code same operand base inRange.tail).append (.cons rfl .nil)
  | .binary op left right _ =>
      obtain ⟨first, second⟩ := (LiteralsInRange.append_iff _ _).mp inRange.tail
      have head := Expr.rereads_code same left base first
      have tail := fun base => Expr.rereads_code same right base second
      cases op
      case and =>
        simp only [Expr.revise, Expr.code, head.length, (tail _).length]
        exact head.append (.cons rfl (tail _))
      case or =>
        simp only [Expr.revise, Expr.code, head.length, (tail _).length]
        exact head.append (.cons rfl (tail _))
      all_goals
        simp only [Expr.revise, Expr.code, head.length]
        exact (head.append (tail _)).append (.cons rfl .nil)

theorem Expr.rereads_listCode (same : r.RereadAs r') (exprs : List Expr) (base : Nat)
    (inRange : LiteralsInRange (Expr.listElements exprs)) :
    Rereads (Expr.listCode base (Expr.listRevise r exprs))
      (Expr.listCode base (Expr.listRevise r' exprs)) := by
  match exprs with
  | [] => exact .nil
  | expr :: rest =>
      obtain ⟨first, others⟩ := (LiteralsInRange.append_iff _ _).mp inRange
      have head := Expr.rereads_code same expr base first
      simp only [Expr.listRevise, Expr.listCode, head.length]
      exact head.append (Expr.rereads_listCode same rest _ others)

end

theorem Arg.literalsInRange_pushed {args : List Arg}
    (inRange : LiteralsInRange (args.flatMap (·.value.elements))) :
    LiteralsInRange (Expr.listElements (Arg.pushed args)) := by
  intro value span within
  obtain ⟨expr, listed, holds⟩ := Expr.mem_listElements.mp within
  obtain ⟨arg, given, rfl⟩ := Arg.mem_pushed.mp listed
  exact inRange value span (List.mem_flatMap.mpr ⟨arg, given, holds⟩)

theorem Arg.rereads_pushed (same : r.RereadAs r') (args : List Arg) (base : Nat)
    (inRange : LiteralsInRange (args.flatMap (·.value.elements))) :
    Rereads (Expr.listCode base (Arg.pushed (args.map (·.revise r))))
      (Expr.listCode base (Arg.pushed (args.map (·.revise r')))) := by
  rw [Arg.pushed_revise, Arg.pushed_revise]
  exact Expr.rereads_listCode same _ base (Arg.literalsInRange_pushed inRange)

theorem Arg.rereads_call (name : String) (args : List Arg) (hasBody : Bool) :
    (Arg.call name (args.map (·.revise r)) hasBody).reread? =
      some (Arg.call name (args.map (·.revise r')) hasBody) := by
  rw [Arg.call_revise, Arg.call_revise]
  rfl

mutual

theorem Node.rereads_code (same : r.RereadAs r') (node : Node) (base : Nat)
    (inRange : LiteralsInRange node.elements) :
    Rereads ((node.revise r).code base) ((node.revise r').code base) := by
  match node with
  | .text _ _ =>
      simp only [Node.revise, Node.code]
      split
      · exact .nil
      · exact .cons rfl .nil
  | .output expr _ =>
      exact (Expr.rereads_code same expr base inRange.tail).append (.cons rfl .nil)
  | .branch arms none _ =>
      simp only [Node.revise, Node.code, Node.armsSize_revise]
      exact Node.rereads_armsCode same arms base _ inRange.tail
  | .branch arms (some otherwise) _ =>
      obtain ⟨first, last⟩ := (LiteralsInRange.append_iff _ _).mp inRange.tail
      simp only [Node.revise, Node.code, Node.armsSize_revise, Node.listSize_revise]
      exact (Node.rereads_armsCode same arms base _ first).append
        (Node.rereads_listCode same otherwise _ last)
  | .loop _ _ iterable body _ =>
      obtain ⟨first, inner⟩ := (LiteralsInRange.append_iff _ _).mp inRange.tail
      have head := Expr.rereads_code same iterable base first
      simp only [Node.revise, Node.code, head.length, Node.length_listCode, Node.listSize_revise]
      have rendered := fun base => Node.rereads_listCode same body base inner
      exact (head.append (.cons rfl (.cons rfl (rendered _)))).append (.cons rfl .nil)
  | .assign _ _ value _ =>
      exact (Expr.rereads_code same value base inRange.tail).append (.cons rfl .nil)
  | .tag name _ args none _ =>
      exact (Arg.rereads_pushed same args base inRange.tail).append
        (.cons (Arg.rereads_call name args false) .nil)
  | .tag name _ args (some body) _ =>
      obtain ⟨values, inner⟩ := (LiteralsInRange.append_iff _ _).mp inRange.tail
      simp only [Node.revise, Node.code, Node.length_listCode, Node.listSize_revise]
      have rendered := fun base => Node.rereads_listCode same body base inner
      have pushed := Arg.rereads_pushed same args (base + 1 + Node.listSize body) values
      exact ((Rereads.cons rfl (rendered _)).append pushed).append
        (.cons (Arg.rereads_call name args true) .nil)

theorem Node.rereads_armsCode (same : r.RereadAs r') (arms : List (Expr × List Node))
    (base stop : Nat) (inRange : LiteralsInRange (Node.armElements arms)) :
    Rereads (Node.armsCode base stop (Node.armsRevise r arms))
      (Node.armsCode base stop (Node.armsRevise r' arms)) := by
  match arms with
  | [] => exact .nil
  | (condition, body) :: rest =>
      simp only [Node.armElements, LiteralsInRange.append_iff] at inRange
      obtain ⟨⟨first, inner⟩, others⟩ := inRange
      have head := Expr.rereads_code same condition base first
      simp only [Node.armsRevise, Node.armsCode, head.length, Node.length_listCode,
        Node.listSize_revise]
      have rendered := fun base => Node.rereads_listCode same body base inner
      exact (head.append (.cons rfl (rendered _))).append
        (.cons rfl (Node.rereads_armsCode same rest _ stop others))

theorem Node.rereads_listCode (same : r.RereadAs r') (nodes : List Node) (base : Nat)
    (inRange : LiteralsInRange (Node.listElements nodes)) :
    Rereads (Node.listCode base (Node.listRevise r nodes))
      (Node.listCode base (Node.listRevise r' nodes)) := by
  match nodes with
  | [] => exact .nil
  | node :: rest =>
      obtain ⟨first, others⟩ := (LiteralsInRange.append_iff _ _).mp inRange
      have head := Node.rereads_code same node base first
      simp only [Node.listRevise, Node.listCode, head.length]
      exact head.append (Node.rereads_listCode same rest _ others)

end

theorem Template.rereads_program (same : r.RereadAs r') (template : Template)
    (inRange : LiteralsInRange (Template.elements template)) :
    Rereads (Template.program (template.revise r)) (Template.program (template.revise r')) :=
  (Node.rereads_listCode same template 0 inRange).append (.cons rfl .nil)

end Code

end QueryTemplate
