import QueryTemplate.Proofs.Code.Layout
import QueryTemplate.Proofs.Program.Operands

set_option autoImplicit false

/- No number in the code of a template goes beyond the end of that code: jumps stay inside, and
every argument that a call counts was pushed by an instruction. -/

namespace QueryTemplate

/-- No number in the code goes beyond a limit. -/
def Bounded (limit : Nat) (code : List Instr) : Prop :=
  ∀ instr ∈ code, ∀ count ∈ instr.counts, count ≤ limit

namespace Bounded

variable {limit : Nat}

@[simp] theorem nil : Bounded limit [] := fun _ within => by cases within

@[simp] theorem append (first second : List Instr) :
    Bounded limit (first ++ second) ↔ Bounded limit first ∧ Bounded limit second :=
  List.forall_mem_append

@[simp] theorem cons (instr : Instr) (code : List Instr) :
    Bounded limit (instr :: code) ↔ (∀ count ∈ instr.counts, count ≤ limit) ∧ Bounded limit code :=
  List.forall_mem_cons

end Bounded

theorem Expr.code_pos (expr : Expr) (base : Nat) : 0 < (expr.code base).length := by
  apply List.length_pos_iff.mpr
  intro empty
  cases expr with
  | binary op left right span => cases op <;> simp [Expr.code] at empty
  | _ => simp [Expr.code] at empty

theorem Expr.length_le_listCode (exprs : List Expr) (base : Nat) :
    exprs.length ≤ (Expr.listCode base exprs).length := by
  induction exprs generalizing base with
  | nil => exact Nat.zero_le _
  | cons expr rest ih =>
      have head := expr.code_pos base
      have tail := ih (base + (expr.code base).length)
      simp only [Expr.listCode, List.length_cons, List.length_append]
      omega

mutual

theorem Expr.bounded_code (expr : Expr) {base limit : Nat}
    (inside : base + (expr.code base).length ≤ limit) : Bounded limit (expr.code base) := by
  match expr with
  | .literal _ _ => simp [Expr.code, Instr.counts]
  | .var _ _ => simp [Expr.code, Instr.counts]
  | .attr target _ _ =>
      simp only [Expr.code, List.length_append, List.length_singleton] at inside
      have first : Bounded limit (target.code base) := target.bounded_code (by omega)
      simp [Expr.code, Instr.counts, first]
  | .filter _ target _ _ args _ =>
      simp only [Expr.code, List.length_append, List.length_singleton] at inside
      have first : Bounded limit (target.code base) := target.bounded_code (by omega)
      have rest : Bounded limit (Expr.listCode (base + (target.code base).length) args) :=
        Expr.bounded_listCode args (by omega)
      have counted := Expr.length_le_listCode args (base + (target.code base).length)
      have argc : args.length ≤ limit := by omega
      simp [Expr.code, Instr.counts, first, rest, argc]
  | .negate operand _ =>
      simp only [Expr.code, List.length_append, List.length_singleton] at inside
      have first : Bounded limit (operand.code base) := operand.bounded_code (by omega)
      simp [Expr.code, Instr.counts, first]
  | .binary op left right _ =>
      cases op
      case and =>
        simp only [Expr.code, List.length_append, List.length_cons] at inside
        have first : Bounded limit (left.code base) := left.bounded_code (by omega)
        have second : Bounded limit (right.code (base + (left.code base).length + 1)) :=
          right.bounded_code (by omega)
        simp only [Expr.code, Bounded.append, Bounded.cons, Instr.counts, List.forall_mem_singleton]
        exact ⟨first, by omega, second⟩
      case or =>
        simp only [Expr.code, List.length_append, List.length_cons] at inside
        have first : Bounded limit (left.code base) := left.bounded_code (by omega)
        have second : Bounded limit (right.code (base + (left.code base).length + 1)) :=
          right.bounded_code (by omega)
        simp only [Expr.code, Bounded.append, Bounded.cons, Instr.counts, List.forall_mem_singleton]
        exact ⟨first, by omega, second⟩
      all_goals
        simp only [Expr.code, List.length_append, List.length_singleton] at inside
        have first : Bounded limit (left.code base) := left.bounded_code (by omega)
        have second : Bounded limit (right.code (base + (left.code base).length)) :=
          right.bounded_code (by omega)
        simp [Expr.code, Instr.counts, first, second]

theorem Expr.bounded_listCode (exprs : List Expr) {base limit : Nat}
    (inside : base + (Expr.listCode base exprs).length ≤ limit) :
    Bounded limit (Expr.listCode base exprs) := by
  match exprs with
  | [] => simp [Expr.listCode]
  | expr :: rest =>
      simp only [Expr.listCode, List.length_append] at inside
      have first : Bounded limit (expr.code base) := expr.bounded_code (by omega)
      have second : Bounded limit (Expr.listCode (base + (expr.code base).length) rest) :=
        Expr.bounded_listCode rest (by omega)
      simp [Expr.listCode, first, second]

end

theorem Arg.bounded_call (name : String) (args : List Arg) (hasBody : Bool) (base : Nat)
    {limit : Nat} (inside : base + (Expr.listCode base (Arg.pushed args)).length ≤ limit) :
    ∀ count ∈ (Arg.call name args hasBody).counts, count ≤ limit := by
  have counted := Expr.length_le_listCode (Arg.pushed args) base
  simp only [Arg.pushed, List.length_append] at counted inside
  simp only [Arg.call, Instr.counts, List.forall_mem_singleton]
  omega

mutual

theorem Node.bounded_code (node : Node) {base limit : Nat} (inside : base + node.size ≤ limit) :
    Bounded limit (node.code base) := by
  match node with
  | .text _ _ =>
      rw [Node.code]
      split <;> simp [Instr.counts]
  | .output expr _ =>
      simp only [Node.size] at inside
      have length := expr.length_code base
      have value : Bounded limit (expr.code base) := expr.bounded_code (by omega)
      simp [Node.code, Instr.counts, value]
  | .branch arms none _ =>
      simp only [Node.size] at inside
      rw [Node.code]
      exact Node.bounded_armsCode arms inside inside
  | .branch arms (some otherwise) _ =>
      simp only [Node.size] at inside
      rw [Node.code, Bounded.append]
      exact ⟨Node.bounded_armsCode arms (by omega) (by omega),
        Node.bounded_listCode otherwise (by omega)⟩
  | .loop var _ iterable body _ =>
      simp only [Node.size] at inside
      have length := iterable.length_code base
      have first : Bounded limit (iterable.code base) := iterable.bounded_code (by omega)
      have inner : Bounded limit (Node.listCode (base + (iterable.code base).length + 1 + 1) body) :=
        Node.bounded_listCode body (by omega)
      simp only [Node.code, Bounded.append, Bounded.cons, Bounded.nil, Instr.counts, List.not_mem_nil,
        false_implies, implies_true, List.forall_mem_singleton, Node.length_listCode, and_true,
        true_and]
      exact ⟨⟨first, by omega, inner⟩, by omega⟩
  | .assign _ _ value _ =>
      simp only [Node.size] at inside
      have length := value.length_code base
      have first : Bounded limit (value.code base) := value.bounded_code (by omega)
      simp [Node.code, Instr.counts, first]
  | .tag name _ args none _ =>
      simp only [Node.size] at inside
      have length := Expr.length_listCode (Arg.pushed args) base
      have pushed : Bounded limit (Expr.listCode base (Arg.pushed args)) :=
        Expr.bounded_listCode _ (by omega)
      simp only [Node.code, Bounded.append, Bounded.cons, Bounded.nil, and_true]
      exact ⟨pushed, Arg.bounded_call name args false base (by omega)⟩
  | .tag name _ args (some body) _ =>
      simp only [Node.size] at inside
      have length := Expr.length_listCode (Arg.pushed args) (base + 1 + Node.listSize body)
      have inner : Bounded limit (Node.listCode (base + 1) body) :=
        Node.bounded_listCode body (by omega)
      have pushed : Bounded limit
          (Expr.listCode (base + 1 + Node.listSize body) (Arg.pushed args)) :=
        Expr.bounded_listCode _ (by omega)
      simp only [Node.code, Bounded.append, Bounded.cons, Bounded.nil, Instr.counts, List.not_mem_nil,
        false_implies, implies_true, Node.length_listCode, and_true, true_and, List.cons_append]
      refine ⟨⟨inner, pushed⟩, ?_⟩
      exact Arg.bounded_call name args true (base + 1 + Node.listSize body) (by omega)

theorem Node.bounded_armsCode (arms : List (Expr × List Node)) {base stop limit : Nat}
    (inside : base + Node.armsSize arms ≤ limit) (stopped : stop ≤ limit) :
    Bounded limit (Node.armsCode base stop arms) := by
  match arms with
  | [] => simp [Node.armsCode]
  | (condition, body) :: rest =>
      simp only [Node.armsSize] at inside
      have length := condition.length_code base
      have test : Bounded limit (condition.code base) := condition.bounded_code (by omega)
      have inner : Bounded limit (Node.listCode (base + (condition.code base).length + 1) body) :=
        Node.bounded_listCode body (by omega)
      simp only [Node.armsCode, Bounded.append, Bounded.cons, Instr.counts,
        List.forall_mem_singleton, Node.length_listCode]
      exact ⟨⟨test, by omega, inner⟩, stopped, Node.bounded_armsCode rest (by omega) stopped⟩

theorem Node.bounded_listCode (nodes : List Node) {base limit : Nat}
    (inside : base + Node.listSize nodes ≤ limit) : Bounded limit (Node.listCode base nodes) := by
  match nodes with
  | [] => simp [Node.listCode]
  | node :: rest =>
      simp only [Node.listSize] at inside
      have length := node.length_code base
      have first : Bounded limit (node.code base) := node.bounded_code (by omega)
      have second : Bounded limit (Node.listCode (base + (node.code base).length) rest) :=
        Node.bounded_listCode rest (by omega)
      simp [Node.listCode, first, second]

end

/-- The numbers in a program stay below its length. -/
theorem Template.bounded_program (template : Template) :
    Bounded (Node.listSize template) (Template.program template) := by
  have inside : Bounded (Node.listSize template) (Node.listCode 0 template) :=
    Node.bounded_listCode template (Nat.le_of_eq (Nat.zero_add _))
  simp [Template.program, Instr.counts, inside]

end QueryTemplate
