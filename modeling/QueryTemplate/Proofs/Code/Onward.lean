import QueryTemplate.Proofs.Code.Layout

set_option autoImplicit false

/- Jumps in the code of a part lead beyond its beginning. Those back to the head of a loop do so
too, since the code of the value that the loop runs through comes before the head. -/

namespace QueryTemplate

/-- All jumps lead beyond an address. -/
def Onward (floor : Nat) (code : List Instr) : Prop :=
  ∀ instr ∈ code, ∀ target, instr.target? = some target → floor < target

namespace Onward

variable {floor : Nat}

@[simp] theorem nil : Onward floor [] := fun _ within => by cases within

@[simp] theorem append (first second : List Instr) :
    Onward floor (first ++ second) ↔ Onward floor first ∧ Onward floor second :=
  List.forall_mem_append

@[simp] theorem cons (instr : Instr) (code : List Instr) :
    Onward floor (instr :: code) ↔
      (∀ target, instr.target? = some target → floor < target) ∧ Onward floor code :=
  List.forall_mem_cons

end Onward

mutual

theorem Expr.onward_code (expr : Expr) {floor base : Nat} (above : floor ≤ base) :
    Onward floor (expr.code base) := by
  match expr with
  | .literal _ _ => simp [Expr.code, Instr.target?]
  | .var _ _ => simp [Expr.code, Instr.target?]
  | .attr target _ _ => simp [Expr.code, Instr.target?, target.onward_code above]
  | .filter _ target _ _ args _ =>
      have rest : Onward floor (Expr.listCode (base + (target.code base).length) args) :=
        Expr.onward_listCode args (by omega)
      simp [Expr.code, Instr.target?, target.onward_code above, rest]
  | .negate operand _ => simp [Expr.code, Instr.target?, operand.onward_code above]
  | .binary op left right _ =>
      have first := left.onward_code above
      have jumped : Onward floor (right.code (base + (left.code base).length + 1)) :=
        right.onward_code (by omega)
      have next : Onward floor (right.code (base + (left.code base).length)) :=
        right.onward_code (by omega)
      cases op <;> simp [Expr.code, Instr.target?, first, jumped, next] <;> omega

theorem Expr.onward_listCode (exprs : List Expr) {floor base : Nat} (above : floor ≤ base) :
    Onward floor (Expr.listCode base exprs) := by
  match exprs with
  | [] => simp [Expr.listCode]
  | expr :: rest =>
      have later : Onward floor (Expr.listCode (base + (expr.code base).length) rest) :=
        Expr.onward_listCode rest (by omega)
      simp [Expr.listCode, expr.onward_code above, later]

end

mutual

theorem Node.onward_code (node : Node) {floor base : Nat} (above : floor ≤ base) :
    Onward floor (node.code base) := by
  match node with
  | .text _ _ =>
      rw [Node.code]
      split <;> simp [Instr.target?]
  | .output expr _ => simp [Node.code, Instr.target?, expr.onward_code above]
  | .branch [] none _ => simp [Node.code, Node.armsCode]
  | .branch [] (some otherwise) _ =>
      have last : Onward floor (Node.listCode (base + Node.armsSize []) otherwise) :=
        Node.onward_listCode otherwise (by omega)
      simp [Node.code, Node.armsCode, last]
  | .branch ((condition, body) :: rest) none _ =>
      simp only [Node.code]
      exact Node.onward_armsCode _ above (by simp only [Node.armsSize]; omega)
  | .branch ((condition, body) :: rest) (some otherwise) _ =>
      simp only [Node.code, Onward.append]
      exact ⟨Node.onward_armsCode _ above (by simp only [Node.armsSize]; omega),
        Node.onward_listCode otherwise (by omega)⟩
  | .loop _ _ iterable body _ =>
      have first := iterable.onward_code above
      have inner : Onward floor (Node.listCode (base + (iterable.code base).length + 1 + 1) body) :=
        Node.onward_listCode body (by omega)
      simp [Node.code, Instr.target?, first, inner]
      omega
  | .assign _ _ value _ => simp [Node.code, Instr.target?, value.onward_code above]
  | .tag _ _ args none _ =>
      simp [Node.code, Arg.call, Instr.target?, Expr.onward_listCode (Arg.pushed args) above]
  | .tag _ _ args (some body) _ =>
      have inner : Onward floor (Node.listCode (base + 1) body) :=
        Node.onward_listCode body (by omega)
      have pushed : Onward floor
          (Expr.listCode (base + 1 + (Node.listCode (base + 1) body).length) (Arg.pushed args)) :=
        Expr.onward_listCode _ (by omega)
      simp [Node.code, Arg.call, Instr.target?, inner, pushed]

theorem Node.onward_armsCode (arms : List (Expr × List Node)) {floor base stop : Nat}
    (above : floor ≤ base) (beyond : floor < stop) :
    Onward floor (Node.armsCode base stop arms) := by
  match arms with
  | [] => simp [Node.armsCode]
  | (condition, body) :: rest =>
      have inner : Onward floor (Node.listCode (base + (condition.code base).length + 1) body) :=
        Node.onward_listCode body (by omega)
      simp only [Node.armsCode, Onward.append, Onward.cons, Instr.target?]
      refine ⟨⟨condition.onward_code above, ?_, inner⟩, ?_,
        Node.onward_armsCode rest (by omega) beyond⟩
      · rintro _ ⟨⟩
        omega
      · rintro _ ⟨⟩
        exact beyond

theorem Node.onward_listCode (nodes : List Node) {floor base : Nat} (above : floor ≤ base) :
    Onward floor (Node.listCode base nodes) := by
  match nodes with
  | [] => simp [Node.listCode]
  | node :: rest =>
      have later : Onward floor (Node.listCode (base + (node.code base).length) rest) :=
        Node.onward_listCode rest (by omega)
      simp [Node.listCode, node.onward_code above, later]

end

end QueryTemplate
