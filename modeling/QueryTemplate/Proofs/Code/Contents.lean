import QueryTemplate.Proofs.Code.Layout
import QueryTemplate.Proofs.Template.Parts

set_option autoImplicit false

/- What the code of a template holds: the values of its literals, its texts, the code of each of its
nodes, and one instruction that exports, the last. -/

namespace QueryTemplate

/-- A literal among elements has a value. -/
def Element.Values (elements : List Element) (value : Json) : Prop :=
  ∃ literal span, .expr (.literal literal span) ∈ elements ∧ literal.toJson = value

namespace Element.Values

variable {value : Json}

@[simp] theorem nil : Values [] value ↔ False := by
  constructor
  · rintro ⟨_, _, within, _⟩
    cases within
  · exact False.elim

@[simp] theorem append (first second : List Element) :
    Values (first ++ second) value ↔ Values first value ∨ Values second value := by
  simp only [Values, List.mem_append, or_and_right, exists_or]

@[simp] theorem node_cons (node : Node) (elements : List Element) :
    Values (.node node :: elements) value ↔ Values elements value := by
  simp only [Values, List.mem_cons, reduceCtorEq, false_or]

theorem expr_cons {expr : Expr} (other : ∀ literal span, expr ≠ .literal literal span)
    (elements : List Element) : Values (.expr expr :: elements) value ↔ Values elements value := by
  constructor
  · rintro ⟨literal, span, within, same⟩
    rcases List.mem_cons.mp within with first | within
    · exact absurd (Element.expr.inj first).symm (other literal span)
    · exact ⟨literal, span, within, same⟩
  · rintro ⟨literal, span, within, same⟩
    exact ⟨literal, span, List.mem_cons_of_mem _ within, same⟩

end Element.Values

open Element (Values)

mutual

theorem Expr.const_mem_code (expr : Expr) (base : Nat) (value : Json) :
    .const value ∈ expr.code base ↔ Values expr.elements value := by
  match expr with
  | .literal constant span =>
      rw [Expr.code, List.mem_singleton]
      constructor
      · intro same
        exact ⟨constant, span, List.mem_singleton.mpr rfl, (Instr.const.inj same).symm⟩
      · rintro ⟨other, place, within, same⟩
        cases List.mem_singleton.mp within
        rw [same]
  | .var name span =>
      rw [Expr.elements, Element.Values.expr_cons (by simp)]
      simp [Expr.code]
  | .attr target name span =>
      rw [Expr.elements, Element.Values.expr_cons (by simp), ← Expr.const_mem_code target base]
      simp [Expr.code]
  | .filter awaited target name nameSpan args span =>
      rw [Expr.elements, List.cons_append, Element.Values.expr_cons (by simp),
        Element.Values.append, ← Expr.const_mem_code target base,
        ← Expr.const_mem_listCode args (base + (target.code base).length)]
      simp [Expr.code]
  | .negate operand span =>
      rw [Expr.elements, Element.Values.expr_cons (by simp), ← Expr.const_mem_code operand base]
      simp [Expr.code]
  | .binary op left right span =>
      rw [Expr.elements, List.cons_append, Element.Values.expr_cons (by simp),
        Element.Values.append, ← Expr.const_mem_code left base]
      cases op
      case and =>
        rw [← Expr.const_mem_code right (base + (left.code base).length + 1)]
        simp [Expr.code]
      case or =>
        rw [← Expr.const_mem_code right (base + (left.code base).length + 1)]
        simp [Expr.code]
      all_goals
        rw [← Expr.const_mem_code right (base + (left.code base).length)]
        simp [Expr.code]

theorem Expr.const_mem_listCode (exprs : List Expr) (base : Nat) (value : Json) :
    .const value ∈ Expr.listCode base exprs ↔ Values (Expr.listElements exprs) value := by
  match exprs with
  | [] => simp [Expr.listCode, Expr.listElements]
  | expr :: rest =>
      rw [Expr.listElements, Element.Values.append, ← Expr.const_mem_code expr base,
        ← Expr.const_mem_listCode rest (base + (expr.code base).length), Expr.listCode,
        List.mem_append]

end

theorem Arg.mem_pushed {args : List Arg} {expr : Expr} :
    expr ∈ Arg.pushed args ↔ ∃ arg ∈ args, arg.value = expr := by
  induction args with
  | nil => simp [Arg.pushed, Arg.positionals, Arg.keywords]
  | cons arg rest ih =>
      have split : expr ∈ Arg.pushed (arg :: rest) ↔ arg.value = expr ∨ expr ∈ Arg.pushed rest := by
        cases arg with
        | positional value =>
            simp only [Arg.pushed, Arg.positionals, Arg.keywords, List.filterMap_cons,
              Arg.positional?, Arg.value, List.mem_append, List.mem_cons, or_assoc,
              eq_comm (a := expr)]
        | keyword key keySpan value =>
            simp only [Arg.pushed, Arg.positionals, Arg.keywords, List.filterMap_cons,
              Arg.positional?, Arg.value, List.map_cons, List.mem_append, List.mem_cons,
              eq_comm (a := expr)]
            exact or_left_comm
      rw [split, ih]
      simp only [List.mem_cons, exists_eq_or_imp]

theorem Expr.values_listElements {exprs : List Expr} {value : Json} :
    Values (Expr.listElements exprs) value ↔ ∃ expr ∈ exprs, Values expr.elements value := by
  induction exprs with
  | nil => simp [Expr.listElements]
  | cons expr rest ih =>
      rw [Expr.listElements, Element.Values.append, ih]
      simp only [List.mem_cons, exists_eq_or_imp]

theorem Arg.values_elements {args : List Arg} {value : Json} :
    Values (args.flatMap (·.value.elements)) value ↔
      ∃ arg ∈ args, Values arg.value.elements value := by
  induction args with
  | nil => simp
  | cons arg rest ih =>
      rw [List.flatMap_cons, Element.Values.append, ih]
      simp only [List.mem_cons, exists_eq_or_imp]

theorem Arg.const_mem_pushed (args : List Arg) (base : Nat) (value : Json) :
    .const value ∈ Expr.listCode base (Arg.pushed args) ↔
      Values (args.flatMap (·.value.elements)) value := by
  rw [Expr.const_mem_listCode, Expr.values_listElements, Arg.values_elements]
  constructor
  · rintro ⟨expr, within, holds⟩
    obtain ⟨arg, listed, rfl⟩ := Arg.mem_pushed.mp within
    exact ⟨arg, listed, holds⟩
  · rintro ⟨arg, listed, holds⟩
    exact ⟨arg.value, Arg.mem_pushed.mpr ⟨arg, listed, rfl⟩, holds⟩

mutual

theorem Node.const_mem_code (node : Node) (base : Nat) (value : Json) :
    .const value ∈ node.code base ↔ Values node.elements value := by
  match node with
  | .text content _ =>
      rw [Node.elements, Element.Values.node_cons, Node.code]
      split <;> simp
  | .output expr _ =>
      rw [Node.elements, Element.Values.node_cons, ← Expr.const_mem_code expr base]
      simp [Node.code]
  | .branch arms none _ =>
      rw [Node.elements, Element.Values.node_cons, Node.code, Node.const_mem_armsCode arms]
  | .branch arms (some otherwise) _ =>
      rw [Node.elements, List.cons_append, Element.Values.node_cons, Element.Values.append,
        Node.code, List.mem_append, Node.const_mem_armsCode arms, Node.const_mem_listCode otherwise]
  | .loop var _ iterable body _ =>
      rw [Node.elements, List.cons_append, Element.Values.node_cons, Element.Values.append,
        ← Expr.const_mem_code iterable base,
        ← Node.const_mem_listCode body (base + (iterable.code base).length + 1 + 1)]
      simp [Node.code]
  | .assign _ _ expr _ =>
      rw [Node.elements, Element.Values.node_cons, ← Expr.const_mem_code expr base]
      simp [Node.code]
  | .tag _ _ args none _ =>
      rw [Node.elements, Element.Values.node_cons, ← Arg.const_mem_pushed args base]
      simp [Node.code, Arg.call]
  | .tag _ _ args (some body) _ =>
      rw [Node.elements, List.cons_append, Element.Values.node_cons, Element.Values.append,
        ← Arg.const_mem_pushed args (base + 1 + (Node.listCode (base + 1) body).length),
        ← Node.const_mem_listCode body (base + 1)]
      simp [Node.code, Arg.call, or_comm]

theorem Node.const_mem_armsCode (arms : List (Expr × List Node)) (base stop : Nat) (value : Json) :
    .const value ∈ Node.armsCode base stop arms ↔ Values (Node.armElements arms) value := by
  match arms with
  | [] => simp [Node.armsCode, Node.armElements]
  | (condition, body) :: rest =>
      rw [Node.armElements, Element.Values.append, Element.Values.append,
        ← Expr.const_mem_code condition base,
        ← Node.const_mem_listCode body (base + (condition.code base).length + 1),
        ← Node.const_mem_armsCode rest _ stop]
      simp [Node.armsCode, or_assoc]
      rfl

theorem Node.const_mem_listCode (nodes : List Node) (base : Nat) (value : Json) :
    .const value ∈ Node.listCode base nodes ↔ Values (Node.listElements nodes) value := by
  match nodes with
  | [] => simp [Node.listCode, Node.listElements]
  | node :: rest =>
      rw [Node.listElements, Element.Values.append, ← Node.const_mem_code node base,
        ← Node.const_mem_listCode rest (base + (node.code base).length), Node.listCode,
        List.mem_append]

end

/-- The constants of a program are the values of the literals of its template. -/
theorem Template.const_mem_program (template : Template) (value : Json) :
    .const value ∈ Template.program template ↔ Values (Template.elements template) value := by
  rw [Template.program, List.mem_append, Node.const_mem_listCode]
  simp [Template.elements]

/-- A text node among elements has a content. -/
def Element.Writes (elements : List Element) (content : String) : Prop :=
  ∃ span, .node (.text content span) ∈ elements

namespace Element.Writes

variable {first second : List Element} {content : String}

theorem left (written : Writes first content) : Writes (first ++ second) content :=
  written.imp fun _ within => List.mem_append_left _ within

theorem right (written : Writes second content) : Writes (first ++ second) content :=
  written.imp fun _ within => List.mem_append_right _ within

theorem tail {element : Element} (written : Writes second content) :
    Writes (element :: second) content :=
  written.imp fun _ within => List.mem_cons_of_mem _ within

end Element.Writes

open Element (Writes)

mutual

theorem Expr.text_not_mem_code (expr : Expr) (base : Nat) (content : String) :
    .text content ∉ expr.code base := by
  match expr with
  | .literal _ _ => simp [Expr.code]
  | .var _ _ => simp [Expr.code]
  | .attr target _ _ => simp [Expr.code, Expr.text_not_mem_code target]
  | .filter _ target _ _ args _ =>
      simp [Expr.code, Expr.text_not_mem_code target, Expr.text_not_mem_listCode args]
  | .negate operand _ => simp [Expr.code, Expr.text_not_mem_code operand]
  | .binary op left right _ =>
      cases op <;> simp [Expr.code, Expr.text_not_mem_code left, Expr.text_not_mem_code right]

theorem Expr.text_not_mem_listCode (exprs : List Expr) (base : Nat) (content : String) :
    .text content ∉ Expr.listCode base exprs := by
  match exprs with
  | [] => simp [Expr.listCode]
  | expr :: rest =>
      simp [Expr.listCode, Expr.text_not_mem_code expr, Expr.text_not_mem_listCode rest]

end

mutual

theorem Node.writes_of_code (node : Node) {base : Nat} {content : String}
    (within : .text content ∈ node.code base) : Writes node.elements content := by
  match node with
  | .text other span =>
      rw [Node.code] at within
      split at within
      · cases within
      · cases List.mem_singleton.mp within
        exact ⟨span, List.mem_cons_self⟩
  | .output expr _ => simp [Node.code, Expr.text_not_mem_code] at within
  | .branch arms none _ => exact (Node.writes_of_armsCode arms within).tail
  | .branch arms (some otherwise) _ =>
      rcases List.mem_append.mp within with within | within
      · exact (Node.writes_of_armsCode arms within).left.tail
      · exact (Node.writes_of_listCode otherwise within).right.tail
  | .loop _ _ iterable body _ =>
      simp only [Node.code, List.mem_append, List.mem_cons, reduceCtorEq, false_or, or_false,
        Expr.text_not_mem_code, List.not_mem_nil] at within
      exact (Node.writes_of_listCode body within).right.tail
  | .assign _ _ value _ => simp [Node.code, Expr.text_not_mem_code] at within
  | .tag _ _ args none _ =>
      simp [Node.code, Expr.text_not_mem_listCode, Arg.call] at within
  | .tag _ _ args (some body) _ =>
      simp only [Node.code, Arg.call, List.mem_append, List.mem_cons, reduceCtorEq, false_or,
        or_false, Expr.text_not_mem_listCode, List.not_mem_nil] at within
      exact (Node.writes_of_listCode body within).right.tail

theorem Node.writes_of_armsCode (arms : List (Expr × List Node)) {base stop : Nat}
    {content : String} (within : .text content ∈ Node.armsCode base stop arms) :
    Writes (Node.armElements arms) content := by
  match arms with
  | [] => cases within
  | (condition, body) :: rest =>
      simp only [Node.armsCode, List.mem_append, List.mem_cons, reduceCtorEq, false_or,
        Expr.text_not_mem_code] at within
      rcases within with within | within
      · exact (Node.writes_of_listCode body within).right.left
      · exact (Node.writes_of_armsCode rest within).right

theorem Node.writes_of_listCode (nodes : List Node) {base : Nat} {content : String}
    (within : .text content ∈ Node.listCode base nodes) :
    Writes (Node.listElements nodes) content := by
  match nodes with
  | [] => cases within
  | node :: rest =>
      rcases List.mem_append.mp within with within | within
      · exact (Node.writes_of_code node within).left
      · exact (Node.writes_of_listCode rest within).right

end

/-- The texts of a program are the contents of text nodes of its template. -/
theorem Template.writes_of_program {template : Template} {content : String}
    (within : .text content ∈ Template.program template) :
    Writes (Template.elements template) content := by
  rcases List.mem_append.mp within with within | last
  · exact Node.writes_of_listCode template within
  · cases List.mem_singleton.mp last

mutual

theorem Expr.deliver_not_mem_code (expr : Expr) (base : Nat) : .deliver ∉ expr.code base := by
  match expr with
  | .literal _ _ => simp [Expr.code]
  | .var _ _ => simp [Expr.code]
  | .attr target _ _ => simp [Expr.code, Expr.deliver_not_mem_code target]
  | .filter _ target _ _ args _ =>
      simp [Expr.code, Expr.deliver_not_mem_code target, Expr.deliver_not_mem_listCode args]
  | .negate operand _ => simp [Expr.code, Expr.deliver_not_mem_code operand]
  | .binary op left right _ =>
      cases op <;>
        simp [Expr.code, Expr.deliver_not_mem_code left, Expr.deliver_not_mem_code right]

theorem Expr.deliver_not_mem_listCode (exprs : List Expr) (base : Nat) :
    .deliver ∉ Expr.listCode base exprs := by
  match exprs with
  | [] => simp [Expr.listCode]
  | expr :: rest =>
      simp [Expr.listCode, Expr.deliver_not_mem_code expr, Expr.deliver_not_mem_listCode rest]

end

mutual

theorem Node.deliver_not_mem_code (node : Node) (base : Nat) : .deliver ∉ node.code base := by
  match node with
  | .text content _ =>
      rw [Node.code]
      split <;> simp
  | .output expr _ => simp [Node.code, Expr.deliver_not_mem_code]
  | .branch arms none _ => simp [Node.code, Node.deliver_not_mem_armsCode arms]
  | .branch arms (some otherwise) _ =>
      simp [Node.code, Node.deliver_not_mem_armsCode arms, Node.deliver_not_mem_listCode otherwise]
  | .loop _ _ iterable body _ =>
      simp [Node.code, Expr.deliver_not_mem_code, Node.deliver_not_mem_listCode body]
  | .assign _ _ value _ => simp [Node.code, Expr.deliver_not_mem_code]
  | .tag _ _ args none _ => simp [Node.code, Expr.deliver_not_mem_listCode, Arg.call]
  | .tag _ _ args (some body) _ =>
      simp [Node.code, Expr.deliver_not_mem_listCode, Node.deliver_not_mem_listCode body, Arg.call]

theorem Node.deliver_not_mem_armsCode (arms : List (Expr × List Node)) (base stop : Nat) :
    .deliver ∉ Node.armsCode base stop arms := by
  match arms with
  | [] => simp [Node.armsCode]
  | (condition, body) :: rest =>
      simp [Node.armsCode, Expr.deliver_not_mem_code, Node.deliver_not_mem_listCode body,
        Node.deliver_not_mem_armsCode rest]

theorem Node.deliver_not_mem_listCode (nodes : List Node) (base : Nat) :
    .deliver ∉ Node.listCode base nodes := by
  match nodes with
  | [] => simp [Node.listCode]
  | node :: rest =>
      simp [Node.listCode, Node.deliver_not_mem_code node, Node.deliver_not_mem_listCode rest]

end

/-- A program exports its main builder by its last instruction only. -/
theorem Template.deliver_of_program {template : Template} {address : Nat}
    (fetched : (Template.program template)[address]? = some .deliver) :
    address = Node.listSize template := by
  have inside := Node.deliver_not_mem_listCode template 0
  rw [Template.program, List.getElem?_append, Node.length_listCode] at fetched
  split at fetched
  next => exact absurd (List.mem_of_getElem? fetched) inside
  next beyond =>
    have first := List.getElem?_eq_some_iff.mp fetched
    obtain ⟨short, -⟩ := first
    rw [List.length_singleton] at short
    omega

/-- The code of a node stands somewhere in a program. -/
def Node.Placed (program : Program) (node : Node) : Prop :=
  ∃ address, CodeAt program address (node.code address)

section

variable {program : Program}

theorem Node.mem_of_cons {node other : Node} {elements : List Element}
    (within : .node node ∈ .node other :: elements) : node = other ∨ .node node ∈ elements :=
  (List.mem_cons.mp within).imp_left Element.node.inj

mutual

theorem Node.placed_of_mem (node : Node) {base : Nat}
    (placed : CodeAt program base (node.code base)) {inner : Node}
    (within : .node inner ∈ node.elements) : inner.Placed program := by
  match node with
  | .text _ _ =>
      obtain rfl := Element.node.inj (List.mem_singleton.mp within)
      exact ⟨base, placed⟩
  | .output expr _ =>
      rcases Node.mem_of_cons within with rfl | within
      · exact ⟨base, placed⟩
      · exact absurd within (expr.node_notMem_elements inner)
  | .branch arms none _ =>
      rcases Node.mem_of_cons within with rfl | within
      · exact ⟨base, placed⟩
      · exact Node.placed_of_mem_arms arms placed within
  | .branch arms (some otherwise) _ =>
      obtain ⟨first, last⟩ := CodeAt.append.mp placed
      rw [Node.length_armsCode] at last
      rcases Node.mem_of_cons within with rfl | within
      · exact ⟨base, placed⟩
      · rcases List.mem_append.mp within with within | within
        · exact Node.placed_of_mem_arms arms first within
        · exact Node.placed_of_mem_list otherwise last within
  | .loop _ _ iterable body _ =>
      obtain ⟨front, -⟩ := CodeAt.append.mp placed
      obtain ⟨-, opened⟩ := CodeAt.append.mp front
      obtain ⟨-, bound⟩ := CodeAt.cons.mp opened
      obtain ⟨-, inside⟩ := CodeAt.cons.mp bound
      rcases Node.mem_of_cons within with rfl | within
      · exact ⟨base, placed⟩
      · have within :=
          (List.mem_append.mp within).resolve_left (iterable.node_notMem_elements inner)
        exact Node.placed_of_mem_list body inside within
  | .assign _ _ value _ =>
      rcases Node.mem_of_cons within with rfl | within
      · exact ⟨base, placed⟩
      · exact absurd within (value.node_notMem_elements inner)
  | .tag _ _ args none _ =>
      rcases Node.mem_of_cons within with rfl | within
      · exact ⟨base, placed⟩
      · obtain ⟨arg, -, within⟩ := List.mem_flatMap.mp within
        exact absurd within (arg.value.node_notMem_elements inner)
  | .tag _ _ args (some body) _ =>
      obtain ⟨front, -⟩ := CodeAt.append.mp placed
      obtain ⟨opened, -⟩ := CodeAt.append.mp front
      obtain ⟨-, inside⟩ := CodeAt.cons.mp opened
      rcases Node.mem_of_cons within with rfl | within
      · exact ⟨base, placed⟩
      · rcases List.mem_append.mp within with within | within
        · obtain ⟨arg, -, within⟩ := List.mem_flatMap.mp within
          exact absurd within (arg.value.node_notMem_elements inner)
        · exact Node.placed_of_mem_list body inside within

theorem Node.placed_of_mem_arms (arms : List (Expr × List Node)) {base stop : Nat}
    (placed : CodeAt program base (Node.armsCode base stop arms)) {inner : Node}
    (within : .node inner ∈ Node.armElements arms) : inner.Placed program := by
  match arms with
  | [] => cases within
  | (condition, body) :: rest =>
      obtain ⟨front, back⟩ := CodeAt.append.mp placed
      obtain ⟨-, tested⟩ := CodeAt.append.mp front
      obtain ⟨-, inside⟩ := CodeAt.cons.mp tested
      obtain ⟨-, others⟩ := CodeAt.cons.mp back
      rcases List.mem_append.mp within with within | within
      · have within :=
          (List.mem_append.mp within).resolve_left (condition.node_notMem_elements inner)
        exact Node.placed_of_mem_list body inside within
      · simp only [List.length_append, List.length_cons, ← Nat.add_assoc,
          Nat.add_right_comm _ (Node.listCode _ body).length 1] at others
        exact Node.placed_of_mem_arms rest others within

theorem Node.placed_of_mem_list (nodes : List Node) {base : Nat}
    (placed : CodeAt program base (Node.listCode base nodes)) {inner : Node}
    (within : .node inner ∈ Node.listElements nodes) : inner.Placed program := by
  match nodes with
  | [] => cases within
  | node :: rest =>
      obtain ⟨first, others⟩ := CodeAt.append.mp placed
      rcases List.mem_append.mp within with within | within
      · exact Node.placed_of_mem node first within
      · exact Node.placed_of_mem_list rest others within

end

end

theorem Template.placed_of_mem {template : Template} {node : Node}
    (within : .node node ∈ template.elements) : node.Placed (program template) :=
  Node.placed_of_mem_list template (CodeAt.whole _ _) within

end QueryTemplate
