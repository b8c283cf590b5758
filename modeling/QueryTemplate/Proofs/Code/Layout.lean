import QueryTemplate.Proofs.Code.Logic

set_option autoImplicit false

/- Where the code of a part stands in a program. The length of the code of a part does not depend on
its address. -/

namespace QueryTemplate

/-- A run of instructions stands in a program from an address on. -/
def CodeAt (program : Program) (address : Nat) (code : List Instr) : Prop :=
  code <+: program.drop address

namespace CodeAt

variable {program : Program} {address : Nat}

theorem append {first second : List Instr} :
    CodeAt program address (first ++ second) ↔
      CodeAt program address first ∧ CodeAt program (address + first.length) second := by
  constructor
  · rintro ⟨after, whole⟩
    rw [List.append_assoc] at whole
    refine ⟨⟨second ++ after, whole⟩, ⟨after, ?_⟩⟩
    rw [← List.drop_drop, ← whole, List.drop_left]
  · rintro ⟨⟨after, front⟩, ⟨rest, back⟩⟩
    refine ⟨rest, ?_⟩
    rw [← List.drop_drop, ← front, List.drop_left] at back
    rw [List.append_assoc, back, front]

theorem cons {instr : Instr} {code : List Instr} :
    CodeAt program address (instr :: code) ↔
      program[address]? = some instr ∧ CodeAt program (address + 1) code := by
  rw [← List.singleton_append, append]
  refine and_congr ?_ Iff.rfl
  rw [← List.head?_drop]
  constructor
  · rintro ⟨after, whole⟩
    rw [← whole]
    rfl
  · intro first
    obtain ⟨after, whole⟩ := List.head?_eq_some_iff.mp first
    exact ⟨after, whole.symm⟩

@[simp] theorem nil : CodeAt program address [] := List.nil_prefix

theorem singleton {instr : Instr} :
    CodeAt program address [instr] ↔ program[address]? = some instr := by
  rw [cons]
  exact and_iff_left nil

theorem whole (code rest : List Instr) : CodeAt (code ++ rest) 0 code := ⟨rest, rfl⟩

theorem mem {base : Nat} {code : List Instr} {instr : Instr} (placed : CodeAt program base code)
    (above : base ≤ address) (below : address < base + code.length)
    (fetched : program[address]? = some instr) :
    instr ∈ code := by
  obtain ⟨after, whole⟩ := placed
  have here : (program.drop base)[address - base]? = some instr := by
    rw [List.getElem?_drop, ← fetched]
    congr 1
    omega
  rw [← whole, List.getElem?_append_left (by omega)] at here
  exact List.mem_of_getElem? here

theorem take {code : List Instr} (placed : CodeAt program address code) :
    CodeAt (program.take (address + code.length)) address code := by
  obtain ⟨after, whole⟩ := placed
  refine ⟨[], ?_⟩
  rw [List.append_nil, List.drop_take, Nat.add_sub_cancel_left, ← whole, List.take_left]

end CodeAt

section

variable (logic : Logic)

mutual

theorem Expr.length_codeBy (expr : Expr) (base : Nat) :
    (expr.codeBy logic base).length = (expr.codeBy logic 0).length := by
  match expr with
  | .literal _ _ => rfl
  | .var _ _ => rfl
  | .attr target _ _ =>
      simp only [Expr.codeBy, List.length_append, target.length_codeBy base]
  | .filter _ target _ _ args _ =>
      simp only [Expr.codeBy, List.length_append, target.length_codeBy base,
        Expr.length_listCodeBy args (base + _), Expr.length_listCodeBy args (0 + _)]
  | .negate operand _ =>
      simp only [Expr.codeBy, List.length_append, operand.length_codeBy base]
  | .binary op left right _ =>
      simp only [Expr.codeBy]
      cases logic.skip? op <;>
        simp only [List.length_append, List.length_cons, left.length_codeBy base,
          right.length_codeBy (base + _ + 1), right.length_codeBy (0 + _ + 1),
          right.length_codeBy (base + _), right.length_codeBy (0 + _)]

theorem Expr.length_listCodeBy (exprs : List Expr) (base : Nat) :
    (Expr.listCodeBy logic base exprs).length = (Expr.listCodeBy logic 0 exprs).length := by
  match exprs with
  | [] => rfl
  | expr :: rest =>
      simp only [Expr.listCodeBy, List.length_append, expr.length_codeBy base,
        Expr.length_listCodeBy rest (base + _), Expr.length_listCodeBy rest (0 + _)]

end

theorem Expr.listCodeBy_append (base : Nat) (first second : List Expr) :
    Expr.listCodeBy logic base (first ++ second) =
      Expr.listCodeBy logic base first ++
        Expr.listCodeBy logic (base + (Expr.listCodeBy logic base first).length) second := by
  induction first generalizing base with
  | nil => rfl
  | cons expr rest ih =>
      simp only [List.cons_append, Expr.listCodeBy, ih, List.length_append, List.append_assoc,
        Nat.add_assoc]

mutual

/-- The size of a node is known before its address. -/
theorem Node.length_codeBy (node : Node) (base : Nat) :
    (node.codeBy logic base).length = node.sizeBy logic := by
  match node with
  | .text content _ =>
      simp only [Node.codeBy, Node.sizeBy]
      split <;> rfl
  | .output expr _ =>
      simp only [Node.codeBy, Node.sizeBy, List.length_append, expr.length_codeBy logic base]
      rfl
  | .branch arms none _ =>
      simp only [Node.codeBy, Node.sizeBy, Node.length_armsCodeBy arms]
  | .branch arms (some otherwise) _ =>
      simp only [Node.codeBy, Node.sizeBy, List.length_append, Node.length_armsCodeBy arms,
        Node.length_listCodeBy otherwise]
  | .loop _ _ iterable body _ =>
      simp only [Node.codeBy, Node.sizeBy, List.length_append, List.length_cons, List.length_nil,
        iterable.length_codeBy logic base, Node.length_listCodeBy body]
      omega
  | .assign _ _ value _ =>
      simp only [Node.codeBy, Node.sizeBy, List.length_append, value.length_codeBy logic base]
      rfl
  | .tag _ _ args none _ =>
      simp only [Node.codeBy, Node.sizeBy, List.length_append, Expr.length_listCodeBy logic _ base]
      rfl
  | .tag _ _ args (some body) _ =>
      simp only [Node.codeBy, Node.sizeBy, List.length_append, List.length_cons, List.length_nil,
        Node.length_listCodeBy body, Expr.length_listCodeBy logic _ (base + 1 + _)]
      omega

theorem Node.length_armsCodeBy (arms : List (Expr × List Node)) (base stop : Nat) :
    (Node.armsCodeBy logic base stop arms).length = Node.armsSizeBy logic arms := by
  match arms with
  | [] => rfl
  | (condition, body) :: rest =>
      simp only [Node.armsCodeBy, Node.armsSizeBy, List.length_append, List.length_cons,
        condition.length_codeBy logic base, Node.length_listCodeBy body,
        Node.length_armsCodeBy rest]
      omega

theorem Node.length_listCodeBy (nodes : List Node) (base : Nat) :
    (Node.listCodeBy logic base nodes).length = Node.listSizeBy logic nodes := by
  match nodes with
  | [] => rfl
  | node :: rest =>
      simp only [Node.listCodeBy, Node.listSizeBy, List.length_append, node.length_codeBy base,
        Node.length_listCodeBy rest]

end

theorem Template.length_programBy (template : Template) :
    (programBy logic template).length = Node.listSizeBy logic template + 1 := by
  simp only [programBy, List.length_append, Node.length_listCodeBy]
  rfl

end

theorem Expr.length_code (expr : Expr) (base : Nat) :
    (expr.code base).length = (expr.code 0).length := by
  simpa only [Expr.codeBy_shortCircuit] using expr.length_codeBy .shortCircuit base

theorem Expr.length_listCode (exprs : List Expr) (base : Nat) :
    (Expr.listCode base exprs).length = (Expr.listCode 0 exprs).length := by
  simpa only [Expr.listCodeBy_shortCircuit] using Expr.length_listCodeBy .shortCircuit exprs base

theorem Expr.listCode_append (base : Nat) (first second : List Expr) :
    Expr.listCode base (first ++ second) =
      Expr.listCode base first ++
        Expr.listCode (base + (Expr.listCode base first).length) second := by
  simpa only [Expr.listCodeBy_shortCircuit] using
    Expr.listCodeBy_append .shortCircuit base first second

theorem Node.length_code (node : Node) (base : Nat) : (node.code base).length = node.size := by
  rw [← Node.codeBy_shortCircuit, ← Node.sizeBy_shortCircuit]
  exact node.length_codeBy .shortCircuit base

theorem Node.length_armsCode (arms : List (Expr × List Node)) (base stop : Nat) :
    (Node.armsCode base stop arms).length = Node.armsSize arms := by
  rw [← Node.armsCodeBy_shortCircuit, ← Node.armsSizeBy_shortCircuit]
  exact Node.length_armsCodeBy .shortCircuit arms base stop

theorem Node.length_listCode (nodes : List Node) (base : Nat) :
    (Node.listCode base nodes).length = Node.listSize nodes := by
  rw [← Node.listCodeBy_shortCircuit, ← Node.listSizeBy_shortCircuit]
  exact Node.length_listCodeBy .shortCircuit nodes base

theorem Template.length_program (template : Template) :
    (Template.program template).length = Node.listSize template + 1 := by
  rw [← Template.programBy_shortCircuit, ← Node.listSizeBy_shortCircuit]
  exact Template.length_programBy .shortCircuit template

end QueryTemplate
