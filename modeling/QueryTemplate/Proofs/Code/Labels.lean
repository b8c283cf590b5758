import QueryTemplate.Proofs.Code.Sketches

set_option autoImplicit false

/- What is known of the stack at each address of the program of a template. Inside an expression it
is what was known before and the literals among the operands so far; between nodes nothing is known.
-/

namespace QueryTemplate

/-- The value that is known without evaluation. -/
def Expr.constant? : Expr → Option Json
  | .literal value _ => some value.toJson
  | _ => none

/-- What is known after pushing expressions. -/
def Expr.known (before : Sketch) (exprs : List Expr) : Sketch :=
  (exprs.map Expr.constant?).reverse ++ before

mutual

/-- What is known in front of each instruction of an expression. -/
def Expr.sketches (before : Sketch) : Expr → List Sketch
  | .literal _ _ => [before]
  | .var _ _ => [before]
  | .attr target _ _ => target.sketches before ++ [target.constant? :: before]
  | .filter _ target _ _ args _ =>
    target.sketches before ++ Expr.listSketches (target.constant? :: before) args ++
      [Expr.known (target.constant? :: before) args]
  | .negate operand _ => operand.sketches before ++ [operand.constant? :: before]
  | .binary .and left right _ =>
    left.sketches before ++ (left.constant? :: before) :: right.sketches before
  | .binary .or left right _ =>
    left.sketches before ++ (left.constant? :: before) :: right.sketches before
  | .binary _ left right _ =>
    left.sketches before ++ right.sketches (left.constant? :: before) ++
      [right.constant? :: left.constant? :: before]

def Expr.listSketches (before : Sketch) : List Expr → List Sketch
  | [] => []
  | expr :: rest => expr.sketches before ++ Expr.listSketches (expr.constant? :: before) rest

end

mutual

/-- What is known in front of each instruction of a node. -/
def Node.sketches : Node → List Sketch
  | .text content _ => if content = "" then [] else [[]]
  | .output expr _ => expr.sketches [] ++ [[expr.constant?]]
  | .branch arms none _ => Node.armsSketches arms
  | .branch arms (some otherwise) _ => Node.armsSketches arms ++ Node.listSketches otherwise
  | .loop _ _ iterable body _ =>
    iterable.sketches [] ++ [iterable.constant?] :: [] :: Node.listSketches body ++ [[]]
  | .assign _ _ value _ => value.sketches [] ++ [[value.constant?]]
  | .tag _ _ args none _ =>
    Expr.listSketches [] (Arg.pushed args) ++ [Expr.known [] (Arg.pushed args)]
  | .tag _ _ args (some body) _ =>
    [] :: Node.listSketches body ++ Expr.listSketches [] (Arg.pushed args) ++
      [Expr.known [] (Arg.pushed args)]

def Node.armsSketches : List (Expr × List Node) → List Sketch
  | [] => []
  | (condition, body) :: rest =>
    condition.sketches [] ++ [condition.constant?] :: Node.listSketches body ++
      [] :: Node.armsSketches rest

def Node.listSketches : List Node → List Sketch
  | [] => []
  | node :: rest => node.sketches ++ Node.listSketches rest

end

mutual

theorem Expr.length_sketches (expr : Expr) (before : Sketch) :
    (expr.sketches before).length = (expr.code 0).length := by
  match expr with
  | .literal _ _ => rfl
  | .var _ _ => rfl
  | .attr target _ _ =>
      simp only [sketches, code, List.length_append, List.length_singleton,
        target.length_sketches before]
  | .filter _ target _ _ args _ =>
      simp only [sketches, code, List.length_append, List.length_singleton,
        target.length_sketches before, Expr.length_listSketches args,
        Expr.length_listCode args (0 + _)]
  | .negate operand _ =>
      simp only [sketches, code, List.length_append, List.length_singleton,
        operand.length_sketches before]
  | .binary op left right _ =>
      cases op <;>
        simp only [sketches, code, List.length_append, List.length_cons, List.length_nil,
          left.length_sketches before, right.length_sketches, right.length_code (0 + _ + 1),
          right.length_code (0 + _)]

theorem Expr.length_listSketches (exprs : List Expr) (before : Sketch) :
    (Expr.listSketches before exprs).length = (Expr.listCode 0 exprs).length := by
  match exprs with
  | [] => rfl
  | expr :: rest =>
      simp only [listSketches, listCode, List.length_append, expr.length_sketches before,
        Expr.length_listSketches rest, Expr.length_listCode rest (0 + _)]

end

mutual

theorem Node.length_sketches (node : Node) : node.sketches.length = node.size := by
  match node with
  | .text content _ =>
      simp only [sketches, size]
      split <;> rfl
  | .output expr _ =>
      simp only [sketches, size, List.length_append, List.length_singleton, expr.length_sketches]
  | .branch arms none _ => simp only [sketches, size, Node.length_armsSketches arms]
  | .branch arms (some otherwise) _ =>
      simp only [sketches, size, List.length_append, Node.length_armsSketches arms,
        Node.length_listSketches otherwise]
  | .loop _ _ iterable body _ =>
      simp only [sketches, size, List.length_append, List.length_cons, List.length_nil,
        iterable.length_sketches, Node.length_listSketches body]
      omega
  | .assign _ _ value _ =>
      simp only [sketches, size, List.length_append, List.length_singleton, value.length_sketches]
  | .tag _ _ args none _ =>
      simp only [sketches, size, List.length_append, List.length_singleton,
        Expr.length_listSketches]
  | .tag _ _ args (some body) _ =>
      simp only [sketches, size, List.length_append, List.length_cons, List.length_nil,
        Expr.length_listSketches, Node.length_listSketches body]
      omega

theorem Node.length_armsSketches (arms : List (Expr × List Node)) :
    (Node.armsSketches arms).length = Node.armsSize arms := by
  match arms with
  | [] => rfl
  | (condition, body) :: rest =>
      simp only [armsSketches, armsSize, List.length_append, List.length_cons,
        condition.length_sketches, Node.length_listSketches body, Node.length_armsSketches rest]
      omega

theorem Node.length_listSketches (nodes : List Node) :
    (Node.listSketches nodes).length = Node.listSize nodes := by
  match nodes with
  | [] => rfl
  | node :: rest =>
      simp only [listSketches, listSize, List.length_append, Node.length_sketches node,
        Node.length_listSketches rest]

end

/-- The assumptions from an address on are the given sketches. -/
abbrev Labelled (labels : Nat → Sketch) : (base : Nat) → List Sketch → Prop :=
  EachAt fun address sketch => labels address = sketch

section

variable {labels : Nat → Sketch}

namespace Instr.Follows

variable {instr : Instr} {address : Nat}

theorem only {next : Nat} {after : Sketch}
    (outcomes : instr.outcomes address (labels address) = [(next, after)])
    (leads : after.Entails (labels next)) : instr.Follows labels address := by
  intro outcome listed
  rw [outcomes, List.mem_singleton] at listed
  subst listed
  exact leads

theorem either {next target : Nat} {after jumped : Sketch}
    (outcomes : instr.outcomes address (labels address) = [(next, after), (target, jumped)])
    (leads : after.Entails (labels next)) (jumps : jumped.Entails (labels target)) :
    instr.Follows labels address := by
  intro outcome listed
  rw [outcomes, List.mem_cons, List.mem_singleton] at listed
  rcases listed with rfl | rfl
  · exact leads
  · exact jumps

end Instr.Follows

theorem Expr.drop_known (before : Sketch) (exprs : List Expr) :
    (known before exprs).drop exprs.length = before := by
  apply List.drop_left'
  rw [List.length_reverse, List.length_map]

theorem Expr.known_cons (before : Sketch) (expr : Expr) (rest : List Expr) :
    known before (expr :: rest) = known (expr.constant? :: before) rest := by
  simp [known]

mutual

/-- If code is labelled with its sketches, and what it leaves known is what is assumed after it, then
each of its instructions leads to what is assumed. -/
theorem Expr.follows (expr : Expr) {base : Nat} {before : Sketch}
    (labelled : Labelled labels base (expr.sketches before))
    (exit : Sketch.Entails (expr.constant? :: before) (labels (base + (expr.code 0).length))) :
    labels base = before ∧ EachAt (Instr.Follows labels) base (expr.code base) := by
  match expr with
  | .literal value _ =>
      have enters : labels base = before := labelled.1
      refine ⟨enters, .only rfl ?_, trivial⟩
      rw [enters]
      exact exit
  | .var name _ =>
      have enters : labels base = before := labelled.1
      refine ⟨enters, .only rfl ?_, trivial⟩
      rw [enters]
      exact exit
  | .attr target name _ =>
      simp only [sketches, code, EachAt.append, Expr.length_sketches, target.length_code base]
        at labelled ⊢
      obtain ⟨inner, after, -⟩ := labelled
      obtain ⟨enters, first⟩ := target.follows inner (after ▸ .refl _)
      refine ⟨enters, first, .only rfl ?_, trivial⟩
      rw [after]
      rwa [code, List.length_append] at exit
  | .filter awaited target name _ args _ =>
      simp only [sketches, code, EachAt.append, Expr.length_sketches, Expr.length_listSketches,
        List.length_append, target.length_code base, Expr.length_listCode args (base + _)]
        at labelled ⊢
      obtain ⟨⟨inner, pushed⟩, after, -⟩ := labelled
      rw [← Nat.add_assoc] at after
      obtain ⟨between, rest⟩ := Expr.list_follows args pushed after
      obtain ⟨enters, first⟩ := target.follows inner (between ▸ .refl _)
      refine ⟨enters, ⟨first, rest⟩, .only rfl ?_, trivial⟩
      rw [← Nat.add_assoc, after, ← List.drop_drop, Expr.drop_known]
      rwa [code, List.length_append, List.length_append, Expr.length_listCode args (0 + _),
        ← Nat.add_assoc, ← Nat.add_assoc] at exit
  | .negate operand _ =>
      simp only [sketches, code, EachAt.append, Expr.length_sketches, operand.length_code base]
        at labelled ⊢
      obtain ⟨inner, after, -⟩ := labelled
      obtain ⟨enters, first⟩ := operand.follows inner (after ▸ .refl _)
      refine ⟨enters, first, .only rfl ?_, trivial⟩
      rw [after]
      rwa [code, List.length_append] at exit
  | .binary op left right _ =>
      have exit : Sketch.Entails (none :: before) (labels (base + (code 0 _).length)) := exit
      cases op
      case and | or =>
        simp only [sketches, code, EachAt.append, EachAt.cons, Expr.length_sketches,
          left.length_code base, right.length_code (base + _ + 1)] at labelled ⊢
        simp only [code, List.length_append, List.length_cons, right.length_code (0 + _ + 1)] at exit
        have stop : base + ((left.code 0).length + ((right.code 0).length + 1)) =
            base + (left.code 0).length + 1 + (right.code 0).length := by omega
        rw [stop] at exit
        obtain ⟨inner, after, second⟩ := labelled
        obtain ⟨between, rest⟩ := right.follows second ((Sketch.Entails.forget _ _).trans exit)
        obtain ⟨enters, first⟩ := left.follows inner (after ▸ .refl _)
        -- the jump keeps the left operand, and what it is has been forgotten at its target
        refine ⟨enters, first, .either rfl ?_ ?_, rest⟩
        · rw [between, after]
          exact .refl _
        · rw [after]
          exact (Sketch.Entails.forget _ _).trans exit
      all_goals
        simp only [sketches, code, EachAt.append, Expr.length_sketches, List.length_append,
          left.length_code base, right.length_code (base + _)] at labelled ⊢
        simp only [code, List.length_append, right.length_code (0 + _)] at exit
        obtain ⟨⟨inner, second⟩, after, -⟩ := labelled
        rw [← Nat.add_assoc] at after
        obtain ⟨between, rest⟩ := right.follows second (after ▸ .refl _)
        obtain ⟨enters, first⟩ := left.follows inner (between ▸ .refl _)
        refine ⟨enters, ⟨first, rest⟩, .only rfl ?_, trivial⟩
        rw [← Nat.add_assoc, after]
        rwa [← Nat.add_assoc, ← Nat.add_assoc] at exit

theorem Expr.list_follows (exprs : List Expr) {base : Nat} {before : Sketch}
    (labelled : Labelled labels base (Expr.listSketches before exprs))
    (exit : labels (base + (Expr.listCode 0 exprs).length) = Expr.known before exprs) :
    labels base = before ∧
      EachAt (Instr.Follows labels) base (Expr.listCode base exprs) := by
  match exprs with
  | [] => exact ⟨exit, trivial⟩
  | expr :: rest =>
      simp only [listSketches, listCode, EachAt.append, Expr.length_sketches,
        expr.length_code base] at labelled ⊢
      rw [Expr.known_cons, listCode, List.length_append, Expr.length_listCode rest (0 + _),
        ← Nat.add_assoc] at exit
      obtain ⟨inner, others⟩ := labelled
      obtain ⟨between, later⟩ := Expr.list_follows rest others exit
      obtain ⟨enters, first⟩ := expr.follows inner (between ▸ .refl _)
      exact ⟨enters, first, later⟩

end

/-- Nothing is assumed at an address. -/
theorem Sketch.Entails.of_nil {address : Nat} (free : labels address = []) (sketch : Sketch) :
    sketch.Entails (labels address) := free ▸ .nil _

mutual

/-- Between nodes nothing is assumed, so that a jump from node to node leads to what is assumed. -/
theorem Node.follows (node : Node) {base : Nat} (labelled : Labelled labels base node.sketches)
    (exit : labels (base + node.size) = []) :
    labels base = [] ∧ EachAt (Instr.Follows labels) base (node.code base) := by
  match node with
  | .text content _ =>
      simp only [sketches, code, size] at labelled exit ⊢
      split
      next empty =>
        rw [if_pos empty] at exit
        exact ⟨exit, trivial⟩
      next written =>
        rw [if_neg written] at labelled exit
        exact ⟨labelled.1, .only rfl (.of_nil exit _), trivial⟩
  | .output expr _ =>
      simp only [sketches, code, EachAt.append, Expr.length_sketches, expr.length_code base]
        at labelled ⊢
      obtain ⟨inner, after, -⟩ := labelled
      obtain ⟨enters, first⟩ := expr.follows inner (after ▸ .refl _)
      exact ⟨enters, first, .only rfl (.of_nil exit _), trivial⟩
  | .branch arms none _ => exact Node.arms_follows arms labelled exit exit
  | .branch arms (some otherwise) _ =>
      simp only [sketches, code, size, EachAt.append, Node.length_armsSketches,
        Node.length_armsCode] at labelled exit ⊢
      rw [← Nat.add_assoc] at exit
      obtain ⟨first, last⟩ := labelled
      obtain ⟨between, rest⟩ := Node.list_follows otherwise last exit
      obtain ⟨enters, tests⟩ := Node.arms_follows arms first between exit
      exact ⟨enters, tests, rest⟩
  | .loop var _ iterable body _ =>
      simp only [sketches, code, size, EachAt.append, EachAt.cons, List.cons_append,
        List.append_assoc, Node.length_listSketches, Expr.length_sketches, Node.length_listCode,
        iterable.length_code base, ← Nat.add_assoc] at labelled exit ⊢
      obtain ⟨inner, after, head, pass, last, -⟩ := labelled
      have stop : base + (iterable.code 0).length + 3 + listSize body =
          base + (iterable.code 0).length + 1 + 1 + listSize body + 1 := by omega
      rw [stop] at exit
      obtain ⟨opens, nodes⟩ := Node.list_follows body pass last
      obtain ⟨enters, first⟩ := iterable.follows inner (after ▸ .refl _)
      exact ⟨enters, first, .only rfl (.of_nil head _),
        .either rfl (.of_nil opens _) (.of_nil exit _), nodes, .only rfl (.of_nil head _), trivial⟩
  | .assign var _ value _ =>
      simp only [sketches, code, EachAt.append, Expr.length_sketches, value.length_code base]
        at labelled ⊢
      obtain ⟨inner, after, -⟩ := labelled
      obtain ⟨enters, first⟩ := value.follows inner (after ▸ .refl _)
      exact ⟨enters, first, .only rfl (.of_nil exit _), trivial⟩
  | .tag name _ args none _ =>
      simp only [sketches, code, EachAt.append, Expr.length_listSketches,
        Expr.length_listCode _ base] at labelled ⊢
      obtain ⟨inner, after, -⟩ := labelled
      obtain ⟨enters, first⟩ := Expr.list_follows _ inner after
      exact ⟨enters, first, .only rfl (.of_nil exit _), trivial⟩
  | .tag name _ args (some body) _ =>
      simp only [sketches, code, size, EachAt.append, EachAt.cons, List.cons_append,
        List.length_append, Node.length_listSketches, Expr.length_listSketches,
        Node.length_listCode, Expr.length_listCode _ (base + 1 + _), ← Nat.add_assoc]
        at labelled exit ⊢
      obtain ⟨enters, ⟨inner, pushed⟩, after, -⟩ := labelled
      obtain ⟨between, values⟩ := Expr.list_follows _ pushed after
      obtain ⟨opens, nodes⟩ := Node.list_follows body inner between
      exact ⟨enters, .only rfl (.of_nil opens _), ⟨nodes, values⟩, .only rfl (.of_nil exit _), trivial⟩

theorem Node.arms_follows (arms : List (Expr × List Node)) {base stop : Nat}
    (labelled : Labelled labels base (Node.armsSketches arms))
    (exit : labels (base + Node.armsSize arms) = []) (stopped : labels stop = []) :
    labels base = [] ∧ EachAt (Instr.Follows labels) base (Node.armsCode base stop arms) := by
  match arms with
  | [] => exact ⟨exit, trivial⟩
  | (condition, body) :: rest =>
      simp only [armsSketches, armsCode, armsSize, EachAt.append, EachAt.cons, List.append_assoc,
        List.cons_append, Node.length_listSketches, Expr.length_sketches, Node.length_listCode,
        condition.length_code base, ← Nat.add_assoc] at labelled exit ⊢
      obtain ⟨inner, after, arm, last, others⟩ := labelled
      have stop : base + (condition.code 0).length + 2 + listSize body + armsSize rest =
          base + (condition.code 0).length + 1 + listSize body + 1 + armsSize rest := by omega
      rw [stop] at exit
      obtain ⟨between, later⟩ := Node.arms_follows rest others exit stopped
      obtain ⟨opens, nodes⟩ := Node.list_follows body arm last
      obtain ⟨enters, first⟩ := condition.follows inner (after ▸ .refl _)
      exact ⟨enters, first, .either rfl (.of_nil opens _) (.of_nil between _), nodes,
        .only rfl (.of_nil stopped _), later⟩

theorem Node.list_follows (nodes : List Node) {base : Nat}
    (labelled : Labelled labels base (Node.listSketches nodes))
    (exit : labels (base + Node.listSize nodes) = []) :
    labels base = [] ∧ EachAt (Instr.Follows labels) base (Node.listCode base nodes) := by
  match nodes with
  | [] => exact ⟨exit, trivial⟩
  | node :: rest =>
      simp only [listSketches, listCode, EachAt.append, Node.length_sketches,
        node.length_code base] at labelled ⊢
      rw [listSize, ← Nat.add_assoc] at exit
      obtain ⟨inner, others⟩ := labelled
      obtain ⟨between, later⟩ := Node.list_follows rest others exit
      obtain ⟨enters, first⟩ := node.follows inner between
      exact ⟨enters, first, later⟩

end

end

/-- What is known of the stack in front of each instruction of a program. -/
def Template.sketch (template : Template) (address : Nat) : Sketch :=
  (Node.listSketches template)[address]?.getD []

theorem Template.labelled_sketch (template : Template) :
    Labelled template.sketch 0 (Node.listSketches template) := by
  rw [Labelled, EachAt.iff_getElem?]
  intro index sketch found
  rw [Nat.zero_add, Template.sketch, found, Option.getD_some]

theorem Template.sketch_beyond {template : Template} {address : Nat}
    (beyond : Node.listSize template ≤ address) : template.sketch address = [] := by
  rw [← Node.length_listSketches] at beyond
  rw [Template.sketch, List.getElem?_eq_none beyond, Option.getD_none]

/-- In every state of every run the stack is as foreseen. -/
theorem Template.fits_advance {setting : Setting} {template : Template}
    (compiled : setting.program = Template.program template) {steps : Nat} {machine : Machine}
    (reached : Machine.start.advance setting steps = .ok machine) :
    (template.sketch machine.pc).Fits machine.stack := by
  have exit : template.sketch (0 + Node.listSize template) = [] := sketch_beyond (by omega)
  have ended : template.sketch (0 + Node.listSize template + 1) = [] := sketch_beyond (by omega)
  obtain ⟨enters, follows⟩ := Node.list_follows template template.labelled_sketch exit
  refine Machine.fits_advance ?_ ?_ reached
  · rw [compiled, Template.program, EachAt.append, Node.length_listCode]
    exact ⟨follows, .only rfl (.of_nil ended _), trivial⟩
  · change (template.sketch 0).Fits []
    rw [enters]
    trivial

end QueryTemplate
