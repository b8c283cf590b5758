import QueryTemplate.Proofs.Code.Layout
import QueryTemplate.Template.Awaiting
import QueryTemplate.Template.Element
import QueryTemplate.Template.Symbol

set_option autoImplicit false

/- Revisions of templates: other literals and other marks on filters in a tree that is otherwise the
same. Marking filters as awaited is one. -/

namespace QueryTemplate

structure Revision where
  literal : Literal → Literal
  awaited : Bool → String → Bool

/-- Marks the filters of given names. -/
def Revision.awaiting (names : List String) : Revision where
  literal := id
  awaited := fun awaited name => awaited || names.contains name

mutual

def Expr.revise (r : Revision) : Expr → Expr
  | .literal value span => .literal (r.literal value) span
  | .var name span => .var name span
  | .attr target name span => .attr (target.revise r) name span
  | .filter awaited target name nameSpan args span =>
    .filter (r.awaited awaited name) (target.revise r) name nameSpan (Expr.listRevise r args) span
  | .negate operand span => .negate (operand.revise r) span
  | .binary op left right span => .binary op (left.revise r) (right.revise r) span

def Expr.listRevise (r : Revision) : List Expr → List Expr
  | [] => []
  | expr :: rest => expr.revise r :: Expr.listRevise r rest

end

def Arg.revise (r : Revision) : Arg → Arg
  | .positional value => .positional (value.revise r)
  | .keyword key keySpan value => .keyword key keySpan (value.revise r)

mutual

def Node.revise (r : Revision) : Node → Node
  | .text content span => .text content span
  | .output expr span => .output (expr.revise r) span
  | .branch arms none span => .branch (Node.armsRevise r arms) none span
  | .branch arms (some otherwise) span =>
    .branch (Node.armsRevise r arms) (some (Node.listRevise r otherwise)) span
  | .loop var varSpan iterable body span =>
    .loop var varSpan (iterable.revise r) (Node.listRevise r body) span
  | .assign var varSpan value span => .assign var varSpan (value.revise r) span
  | .tag name nameSpan args none span => .tag name nameSpan (args.map (·.revise r)) none span
  | .tag name nameSpan args (some body) span =>
    .tag name nameSpan (args.map (·.revise r)) (some (Node.listRevise r body)) span

def Node.armsRevise (r : Revision) : List (Expr × List Node) → List (Expr × List Node)
  | [] => []
  | (condition, body) :: rest =>
    (condition.revise r, Node.listRevise r body) :: Node.armsRevise r rest

def Node.listRevise (r : Revision) : List Node → List Node
  | [] => []
  | node :: rest => node.revise r :: Node.listRevise r rest

end

def Template.revise (r : Revision) (template : Template) : Template := Node.listRevise r template

mutual

theorem Expr.awaiting_eq_revise (names : List String) (expr : Expr) :
    expr.awaiting names = expr.revise (Revision.awaiting names) := by
  match expr with
  | .literal _ _ => rfl
  | .var _ _ => rfl
  | .attr target _ _ => rw [Expr.awaiting, Expr.revise, target.awaiting_eq_revise]
  | .filter _ target _ _ args _ =>
      rw [Expr.awaiting, Expr.revise, target.awaiting_eq_revise, Expr.listAwaiting_eq_revise]
      rfl
  | .negate operand _ => rw [Expr.awaiting, Expr.revise, operand.awaiting_eq_revise]
  | .binary _ left right _ =>
      rw [Expr.awaiting, Expr.revise, left.awaiting_eq_revise, right.awaiting_eq_revise]

theorem Expr.listAwaiting_eq_revise (names : List String) (exprs : List Expr) :
    Expr.listAwaiting names exprs = Expr.listRevise (Revision.awaiting names) exprs := by
  match exprs with
  | [] => rfl
  | expr :: rest =>
      rw [Expr.listAwaiting, Expr.listRevise, expr.awaiting_eq_revise, Expr.listAwaiting_eq_revise]

end

theorem Arg.awaiting_eq_revise (names : List String) (args : List Arg) :
    args.map (·.awaiting names) = args.map (·.revise (Revision.awaiting names)) := by
  apply List.map_congr_left
  intro arg _
  cases arg <;> simp only [Arg.awaiting, Arg.revise, Expr.awaiting_eq_revise]

mutual

theorem Node.awaiting_eq_revise (names : List String) (node : Node) :
    node.awaiting names = node.revise (Revision.awaiting names) := by
  match node with
  | .text _ _ => rfl
  | .output expr _ => rw [Node.awaiting, Node.revise, expr.awaiting_eq_revise]
  | .branch arms none _ => rw [Node.awaiting, Node.revise, Node.armsAwaiting_eq_revise]
  | .branch arms (some otherwise) _ =>
      rw [Node.awaiting, Node.revise, Node.armsAwaiting_eq_revise, Node.listAwaiting_eq_revise]
  | .loop _ _ iterable body _ =>
      rw [Node.awaiting, Node.revise, iterable.awaiting_eq_revise, Node.listAwaiting_eq_revise]
  | .assign _ _ value _ => rw [Node.awaiting, Node.revise, value.awaiting_eq_revise]
  | .tag _ _ args none _ => rw [Node.awaiting, Node.revise, Arg.awaiting_eq_revise]
  | .tag _ _ args (some body) _ =>
      rw [Node.awaiting, Node.revise, Arg.awaiting_eq_revise, Node.listAwaiting_eq_revise]

theorem Node.armsAwaiting_eq_revise (names : List String) (arms : List (Expr × List Node)) :
    Node.armsAwaiting names arms = Node.armsRevise (Revision.awaiting names) arms := by
  match arms with
  | [] => rfl
  | (condition, body) :: rest =>
      rw [Node.armsAwaiting, Node.armsRevise, condition.awaiting_eq_revise,
        Node.listAwaiting_eq_revise, Node.armsAwaiting_eq_revise]

theorem Node.listAwaiting_eq_revise (names : List String) (nodes : List Node) :
    Node.listAwaiting names nodes = Node.listRevise (Revision.awaiting names) nodes := by
  match nodes with
  | [] => rfl
  | node :: rest =>
      rw [Node.listAwaiting, Node.listRevise, node.awaiting_eq_revise, Node.listAwaiting_eq_revise]

end

theorem Template.awaiting_eq_revise (names : List String) (template : Template) :
    template.awaiting names = template.revise (Revision.awaiting names) :=
  Node.listAwaiting_eq_revise names template

variable (r : Revision)

mutual

theorem Expr.length_code_revise (expr : Expr) :
    ((expr.revise r).code 0).length = (expr.code 0).length := by
  match expr with
  | .literal _ _ => rfl
  | .var _ _ => rfl
  | .attr target _ _ =>
      simp only [Expr.revise, Expr.code, List.length_append, Expr.length_code_revise target]
  | .filter _ target _ _ args _ =>
      simp only [Expr.revise, Expr.code, List.length_append, Expr.length_code_revise target,
        Expr.length_listCode _ (0 + _), Expr.length_listCode_revise args, List.length_singleton]
  | .negate operand _ =>
      simp only [Expr.revise, Expr.code, List.length_append, Expr.length_code_revise operand]
  | .binary op left right _ =>
      cases op <;>
        simp only [Expr.revise, Expr.code, List.length_append, List.length_cons, List.length_nil,
          Expr.length_code _ (0 + _ + 1), Expr.length_code _ (0 + _), Expr.length_code_revise left,
          Expr.length_code_revise right]

theorem Expr.length_listCode_revise (exprs : List Expr) :
    (Expr.listCode 0 (Expr.listRevise r exprs)).length = (Expr.listCode 0 exprs).length := by
  match exprs with
  | [] => rfl
  | expr :: rest =>
      simp only [Expr.listRevise, Expr.listCode, List.length_append, Expr.length_code_revise expr,
        Expr.length_listCode _ (0 + _), Expr.length_listCode_revise rest]

end

theorem Expr.listRevise_eq_map (exprs : List Expr) :
    Expr.listRevise r exprs = exprs.map (·.revise r) := by
  induction exprs with
  | nil => rfl
  | cons expr rest ih => rw [Expr.listRevise, List.map_cons, ih]

theorem Arg.positionals_revise (args : List Arg) :
    Arg.positionals (args.map (·.revise r)) = (Arg.positionals args).map (·.revise r) := by
  induction args with
  | nil => rfl
  | cons arg rest ih =>
      cases arg with
      | positional value => exact congrArg (value.revise r :: ·) ih
      | keyword key keySpan value => exact ih

theorem Arg.keywords_revise (args : List Arg) :
    Arg.keywords (args.map (·.revise r)) =
      (Arg.keywords args).map fun keyword => (keyword.1, keyword.2.revise r) := by
  induction args with
  | nil => rfl
  | cons arg rest ih =>
      cases arg with
      | positional value => exact ih
      | keyword key keySpan value => exact congrArg ((key, value.revise r) :: ·) ih

theorem Arg.pushed_revise (args : List Arg) :
    Arg.pushed (args.map (·.revise r)) = Expr.listRevise r (Arg.pushed args) := by
  simp only [Expr.listRevise_eq_map, Arg.pushed, Arg.positionals_revise, Arg.keywords_revise,
    List.map_append, List.map_map]
  rfl

theorem Arg.call_revise (name : String) (args : List Arg) (hasBody : Bool) :
    Arg.call name (args.map (·.revise r)) hasBody = Arg.call name args hasBody := by
  simp only [Arg.call, Arg.positionals_revise, Arg.keywords_revise, List.length_map, List.map_map]
  rfl

mutual

theorem Node.size_revise (node : Node) : (node.revise r).size = node.size := by
  match node with
  | .text _ _ => rfl
  | .output expr _ => simp only [Node.revise, Node.size, Expr.length_code_revise]
  | .branch arms none _ => simp only [Node.revise, Node.size, Node.armsSize_revise arms]
  | .branch arms (some otherwise) _ =>
      simp only [Node.revise, Node.size, Node.armsSize_revise arms, Node.listSize_revise otherwise]
  | .loop _ _ iterable body _ =>
      simp only [Node.revise, Node.size, Expr.length_code_revise, Node.listSize_revise body]
  | .assign _ _ value _ => simp only [Node.revise, Node.size, Expr.length_code_revise]
  | .tag _ _ args none _ =>
      simp only [Node.revise, Node.size, Arg.pushed_revise, Expr.length_listCode_revise]
  | .tag _ _ args (some body) _ =>
      simp only [Node.revise, Node.size, Arg.pushed_revise, Expr.length_listCode_revise,
        Node.listSize_revise body]

theorem Node.armsSize_revise (arms : List (Expr × List Node)) :
    Node.armsSize (Node.armsRevise r arms) = Node.armsSize arms := by
  match arms with
  | [] => rfl
  | (condition, body) :: rest =>
      simp only [Node.armsRevise, Node.armsSize, Expr.length_code_revise,
        Node.listSize_revise body, Node.armsSize_revise rest]

theorem Node.listSize_revise (nodes : List Node) :
    Node.listSize (Node.listRevise r nodes) = Node.listSize nodes := by
  match nodes with
  | [] => rfl
  | node :: rest =>
      simp only [Node.listRevise, Node.listSize, Node.size_revise node, Node.listSize_revise rest]

end

def Element.revise : Element → Element
  | .node value => .node (value.revise r)
  | .expr value => .expr (value.revise r)

mutual

theorem Expr.elements_revise (expr : Expr) :
    (expr.revise r).elements = expr.elements.map (Element.revise r) := by
  match expr with
  | .literal _ _ => rfl
  | .var _ _ => rfl
  | .attr target _ _ =>
      simp only [Expr.revise, Expr.elements, List.map_cons, Expr.elements_revise target,
        Element.revise]
  | .filter _ target _ _ args _ =>
      simp only [Expr.revise, Expr.elements, List.map_cons, List.map_append,
        Expr.elements_revise target, Expr.listElements_revise args, Element.revise, List.cons_append]
  | .negate operand _ =>
      simp only [Expr.revise, Expr.elements, List.map_cons, Expr.elements_revise operand,
        Element.revise]
  | .binary _ left right _ =>
      simp only [Expr.revise, Expr.elements, List.map_cons, List.map_append,
        Expr.elements_revise left, Expr.elements_revise right, Element.revise, List.cons_append]

theorem Expr.listElements_revise (exprs : List Expr) :
    Expr.listElements (Expr.listRevise r exprs) =
      (Expr.listElements exprs).map (Element.revise r) := by
  match exprs with
  | [] => rfl
  | expr :: rest =>
      simp only [Expr.listRevise, Expr.listElements, List.map_append, Expr.elements_revise expr,
        Expr.listElements_revise rest]

end

theorem Arg.elements_revise (args : List Arg) :
    (args.map (·.revise r)).flatMap (·.value.elements) =
      (args.flatMap (·.value.elements)).map (Element.revise r) := by
  rw [List.flatMap_map, List.map_flatMap]
  refine congrArg (List.flatMap · args) (funext fun arg => ?_)
  cases arg <;> exact Expr.elements_revise r _

mutual

theorem Node.elements_revise (node : Node) :
    (node.revise r).elements = node.elements.map (Element.revise r) := by
  match node with
  | .text _ _ => rfl
  | .output expr _ =>
      simp only [Node.revise, Node.elements, List.map_cons, Expr.elements_revise, Element.revise]
  | .branch arms none _ =>
      simp only [Node.revise, Node.elements, List.map_cons, Node.armElements_revise arms,
        Element.revise]
  | .branch arms (some otherwise) _ =>
      simp only [Node.revise, Node.elements, List.map_cons, List.map_append,
        Node.armElements_revise arms, Node.listElements_revise otherwise, Element.revise,
        List.cons_append]
  | .loop _ _ iterable body _ =>
      simp only [Node.revise, Node.elements, List.map_cons, List.map_append, Expr.elements_revise,
        Node.listElements_revise body, Element.revise, List.cons_append]
  | .assign _ _ value _ =>
      simp only [Node.revise, Node.elements, List.map_cons, Expr.elements_revise, Element.revise]
  | .tag _ _ args none _ =>
      simp only [Node.revise, Node.elements, List.map_cons, Arg.elements_revise, Element.revise]
  | .tag _ _ args (some body) _ =>
      simp only [Node.revise, Node.elements, List.map_cons, List.map_append, Arg.elements_revise,
        Node.listElements_revise body, Element.revise, List.cons_append]

theorem Node.armElements_revise (arms : List (Expr × List Node)) :
    Node.armElements (Node.armsRevise r arms) =
      (Node.armElements arms).map (Element.revise r) := by
  match arms with
  | [] => rfl
  | (condition, body) :: rest =>
      simp only [Node.armsRevise, Node.armElements, List.map_append, Expr.elements_revise,
        Node.listElements_revise body, Node.armElements_revise rest]

theorem Node.listElements_revise (nodes : List Node) :
    Node.listElements (Node.listRevise r nodes) =
      (Node.listElements nodes).map (Element.revise r) := by
  match nodes with
  | [] => rfl
  | node :: rest =>
      simp only [Node.listRevise, Node.listElements, List.map_append, Node.elements_revise node,
        Node.listElements_revise rest]

end

theorem Template.elements_revise (template : Template) :
    Template.elements (template.revise r) = (Template.elements template).map (Element.revise r) :=
  Node.listElements_revise r template

mutual

theorem Expr.symbols_revise (expr : Expr) : (expr.revise r).symbols = expr.symbols := by
  match expr with
  | .literal _ _ => rfl
  | .var _ _ => rfl
  | .attr target _ _ => simp only [Expr.revise, Expr.symbols, Expr.symbols_revise target]
  | .filter _ target _ _ args _ =>
      simp only [Expr.revise, Expr.symbols, Expr.symbols_revise target,
        Expr.listSymbols_revise args]
  | .negate operand _ => simp only [Expr.revise, Expr.symbols, Expr.symbols_revise operand]
  | .binary _ left right _ =>
      simp only [Expr.revise, Expr.symbols, Expr.symbols_revise left, Expr.symbols_revise right]

theorem Expr.listSymbols_revise (exprs : List Expr) :
    Expr.listSymbols (Expr.listRevise r exprs) = Expr.listSymbols exprs := by
  match exprs with
  | [] => rfl
  | expr :: rest =>
      simp only [Expr.listRevise, Expr.listSymbols, Expr.symbols_revise expr,
        Expr.listSymbols_revise rest]

end

theorem Arg.symbols_revise (args : List Arg) :
    (args.map (·.revise r)).flatMap (·.value.symbols) = args.flatMap (·.value.symbols) := by
  rw [List.flatMap_map]
  refine congrArg (List.flatMap · args) (funext fun arg => ?_)
  cases arg <;> exact Expr.symbols_revise r _

mutual

theorem Node.symbols_revise (node : Node) : (node.revise r).symbols = node.symbols := by
  match node with
  | .text _ _ => rfl
  | .output expr _ => exact Expr.symbols_revise r expr
  | .branch arms none _ => exact Node.armSymbols_revise arms
  | .branch arms (some otherwise) _ =>
      simp only [Node.revise, Node.symbols, Node.armSymbols_revise arms,
        Node.listSymbols_revise otherwise]
  | .loop _ _ iterable body _ =>
      simp only [Node.revise, Node.symbols, Expr.symbols_revise, Node.listSymbols_revise body]
  | .assign _ _ value _ => exact Expr.symbols_revise r value
  | .tag _ _ args none _ => simp only [Node.revise, Node.symbols, Arg.symbols_revise]
  | .tag _ _ args (some body) _ =>
      simp only [Node.revise, Node.symbols, Arg.symbols_revise, Node.listSymbols_revise body]

theorem Node.armSymbols_revise (arms : List (Expr × List Node)) :
    Node.armSymbols (Node.armsRevise r arms) = Node.armSymbols arms := by
  match arms with
  | [] => rfl
  | (condition, body) :: rest =>
      simp only [Node.armsRevise, Node.armSymbols, Expr.symbols_revise,
        Node.listSymbols_revise body, Node.armSymbols_revise rest]

theorem Node.listSymbols_revise (nodes : List Node) :
    Node.listSymbols (Node.listRevise r nodes) = Node.listSymbols nodes := by
  match nodes with
  | [] => rfl
  | node :: rest =>
      simp only [Node.listRevise, Node.listSymbols, Node.symbols_revise node,
        Node.listSymbols_revise rest]

end

theorem Template.symbols_revise (template : Template) :
    Template.symbols (template.revise r) = Template.symbols template :=
  Node.listSymbols_revise r template

end QueryTemplate
