import QueryTemplate.Template.Element
import QueryTemplate.Template.Symbol

set_option autoImplicit false

/- The expressions that an expression is made of, and its elements as those of its parts. -/

namespace QueryTemplate

/-- The expressions that an expression is made of, from left to right. -/
def Expr.parts : Expr → List Expr
  | .literal _ _ => []
  | .var _ _ => []
  | .attr target _ _ => [target]
  | .filter _ target _ _ args _ => target :: args
  | .negate operand _ => [operand]
  | .binary _ left right _ => [left, right]

mutual

/-- What holds of an expression whenever it holds of its parts holds of every expression. -/
theorem Expr.induct_parts {motive : Expr → Prop}
    (step : ∀ expr : Expr, (∀ part ∈ expr.parts, motive part) → motive expr) (expr : Expr) :
    motive expr := by
  match expr with
  | .literal _ _ => exact step _ fun _ within => nomatch within
  | .var _ _ => exact step _ fun _ within => nomatch within
  | .attr target _ _ => exact step _ (List.forall_mem_singleton.mpr (induct_parts step target))
  | .filter _ target _ _ args _ =>
      exact step _ (List.forall_mem_cons.mpr ⟨induct_parts step target, listInduct_parts step args⟩)
  | .negate operand _ => exact step _ (List.forall_mem_singleton.mpr (induct_parts step operand))
  | .binary _ left right _ =>
      refine step _ (List.forall_mem_cons.mpr ⟨induct_parts step left, ?_⟩)
      exact List.forall_mem_singleton.mpr (induct_parts step right)

theorem Expr.listInduct_parts {motive : Expr → Prop}
    (step : ∀ expr : Expr, (∀ part ∈ expr.parts, motive part) → motive expr)
    (exprs : List Expr) : ∀ expr ∈ exprs, motive expr := by
  match exprs with
  | [] => exact fun _ within => nomatch within
  | expr :: rest =>
      exact List.forall_mem_cons.mpr ⟨induct_parts step expr, listInduct_parts step rest⟩

end

theorem Expr.listElements_eq_flatMap (exprs : List Expr) :
    listElements exprs = exprs.flatMap elements := by
  induction exprs with
  | nil => rfl
  | cons expr rest ih => rw [listElements, ih, List.flatMap_cons]

theorem Expr.listSymbols_eq_flatMap (exprs : List Expr) :
    listSymbols exprs = exprs.flatMap symbols := by
  induction exprs with
  | nil => rfl
  | cons expr rest ih => rw [listSymbols, ih, List.flatMap_cons]

/-- An expression comes before the elements of its parts. -/
theorem Expr.elements_eq (expr : Expr) :
    expr.elements = .expr expr :: expr.parts.flatMap elements := by
  cases expr with
  | filter => rw [elements, parts, listElements_eq_flatMap, List.flatMap_cons, List.cons_append]
  | _ => simp only [elements, parts, List.flatMap_cons, List.flatMap_nil, List.append_nil,
      List.cons_append]

theorem Expr.mem_elements {expr : Expr} {element : Element} :
    element ∈ expr.elements ↔
      element = .expr expr ∨ ∃ part ∈ expr.parts, element ∈ part.elements := by
  rw [elements_eq, List.mem_cons, List.mem_flatMap]

theorem Expr.mem_elements_self (expr : Expr) : .expr expr ∈ expr.elements :=
  mem_elements.mpr (Or.inl rfl)

theorem Expr.elements_subset {expr sub : Expr} (within : .expr sub ∈ expr.elements) :
    sub.elements ⊆ expr.elements := by
  induction expr using induct_parts with
  | step expr ih =>
      rcases mem_elements.mp within with same | ⟨part, member, inner⟩
      · rw [Element.expr.inj same]
        exact List.Subset.refl _
      · intro element deeper
        exact mem_elements.mpr (Or.inr ⟨part, member, ih part member inner deeper⟩)

/-- All elements of an expression are expressions. -/
theorem Expr.node_notMem_elements (expr : Expr) (node : Node) : .node node ∉ expr.elements := by
  induction expr using induct_parts with
  | step expr ih =>
      rw [mem_elements]
      rintro (same | ⟨part, within, inner⟩)
      · cases same
      · exact ih part within inner

end QueryTemplate
