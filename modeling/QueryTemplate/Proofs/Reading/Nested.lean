import QueryTemplate.Proofs.Reading.Grammar
import QueryTemplate.Token.Nesting

set_option autoImplicit false

/- How deep an expression is, and how deep the limits on nesting let it be. An expression stands
inside parentheses and after words `not`; those before the head of an expression that filters are
applied to count inside the parentheses of the head, but not inside those of the filters' arguments.
-/

namespace QueryTemplate

namespace Expr

mutual

/-- The most negations on a path from the root to a leaf. -/
def nots : Expr → Nat
  | .attr target _ _ => target.nots
  | .filter _ target _ _ args _ => max target.nots (listNots args)
  | .negate operand _ => operand.nots + 1
  | .binary _ left right _ => max left.nots right.nots
  | _ => 0

def listNots : List Expr → Nat
  | [] => 0
  | expr :: exprs => max expr.nots (listNots exprs)

end

mutual

/-- The number of nodes on the longest path from the root to a leaf. -/
def height : Expr → Nat
  | .attr target _ _ => target.height + 1
  | .filter _ target _ _ args _ => max target.height (listHeight args) + 1
  | .negate operand _ => operand.height + 1
  | .binary _ left right _ => max left.height right.height + 1
  | _ => 1

def listHeight : List Expr → Nat
  | [] => 0
  | expr :: exprs => max expr.height (listHeight exprs)

end

mutual

/-- The number of attributes, filters and binary operators. -/
def operators : Expr → Nat
  | .attr target _ _ => target.operators + 1
  | .filter _ target _ _ args _ => target.operators + 1 + listOperators args
  | .negate operand _ => operand.operators
  | .binary _ left right _ => left.operators + 1 + right.operators
  | _ => 0

def listOperators : List Expr → Nat
  | [] => 0
  | expr :: exprs => expr.operators + listOperators exprs

end

mutual

theorem height_le (expr : Expr) : expr.height ≤ expr.nots + expr.operators + 1 := by
  match expr with
  | .literal _ _ => exact Nat.le_refl 1
  | .var _ _ => exact Nat.le_refl 1
  | .attr target _ _ =>
      have inner := height_le target
      simp only [height, nots, operators]
      omega
  | .filter _ target _ _ args _ =>
      have inner := height_le target
      have others := listHeight_le args
      simp only [height, nots, operators]
      omega
  | .negate operand _ =>
      have inner := height_le operand
      simp only [height, nots, operators]
      omega
  | .binary _ left right _ =>
      have first := height_le left
      have second := height_le right
      simp only [height, nots, operators]
      omega

theorem listHeight_le (exprs : List Expr) :
    listHeight exprs ≤ listNots exprs + listOperators exprs + 1 := by
  match exprs with
  | [] => exact Nat.zero_le _
  | expr :: rest =>
      have first := height_le expr
      have others := listHeight_le rest
      simp only [listHeight, listNots, listOperators]
      omega

end

mutual

theorem operators_le {expr sub : Expr} (within : .expr sub ∈ expr.elements) :
    sub.operators ≤ expr.operators := by
  match expr with
  | .literal _ _ =>
      cases List.mem_singleton.mp within
      exact Nat.le_refl _
  | .var _ _ =>
      cases List.mem_singleton.mp within
      exact Nat.le_refl _
  | .attr target _ _ =>
      rcases List.mem_cons.mp within with same | within
      · cases same
        exact Nat.le_refl _
      · have inner := operators_le within
        rw [operators]
        omega
  | .filter _ target _ _ args _ =>
      rcases List.mem_cons.mp within with same | within
      · cases same
        exact Nat.le_refl _
      · rw [operators]
        rcases List.mem_append.mp within with within | within
        · have inner := operators_le within
          omega
        · have inner := operators_le_list within
          omega
  | .negate operand _ =>
      rcases List.mem_cons.mp within with same | within
      · cases same
        exact Nat.le_refl _
      · have inner := operators_le within
        exact inner
  | .binary _ left right _ =>
      rcases List.mem_cons.mp within with same | within
      · cases same
        exact Nat.le_refl _
      · rw [operators]
        rcases List.mem_append.mp within with within | within
        · have inner := operators_le within
          omega
        · have inner := operators_le within
          omega

theorem operators_le_list {exprs : List Expr} {sub : Expr}
    (within : .expr sub ∈ listElements exprs) : sub.operators ≤ listOperators exprs := by
  match exprs with
  | [] => cases within
  | expr :: rest =>
      rw [listOperators]
      rcases List.mem_append.mp within with within | within
      · have inner := operators_le within
        omega
      · have inner := operators_le_list within
        omega

end

mutual

theorem operators_bare (expr : Expr) : expr.bare.operators = expr.operators := by
  match expr with
  | .literal _ _ => rfl
  | .var _ _ => rfl
  | .attr target _ _ => rw [bare, operators, operators, operators_bare target]
  | .filter _ target _ _ args _ =>
      rw [bare, operators, operators, operators_bare target, listOperators_bare args]
  | .negate operand _ => rw [bare, operators, operators, operators_bare operand]
  | .binary _ left right _ =>
      rw [bare, operators, operators, operators_bare left, operators_bare right]

theorem listOperators_bare (exprs : List Expr) :
    listOperators (listBare exprs) = listOperators exprs := by
  match exprs with
  | [] => rfl
  | expr :: rest =>
      rw [listBare, listOperators, listOperators, operators_bare expr, listOperators_bare rest]

end

theorem listNots_le {exprs : List Expr} {bound : Nat}
    (each : ∀ expr ∈ exprs, expr.nots ≤ bound) : listNots exprs ≤ bound := by
  induction exprs with
  | nil => exact Nat.zero_le _
  | cons expr rest ih =>
      obtain ⟨head, tail⟩ := List.forall_mem_cons.mp each
      exact Nat.max_le.mpr ⟨head, ih tail⟩

/-- The sum of the numbers up to this one. -/
def triangle : Nat → Nat
  | 0 => 0
  | size + 1 => triangle size + (size + 1)

theorem triangle_add (size more : Nat) : triangle size + more ≤ triangle (size + more) := by
  induction more with
  | zero => exact Nat.le_refl _
  | succ more ih =>
      show triangle size + (more + 1) ≤ triangle (size + more) + (size + more + 1)
      omega

theorem le_triangle (size : Nat) : size ≤ triangle size := by
  have grows : 0 + size ≤ triangle (0 + size) := triangle_add 0 size
  rwa [Nat.zero_add] at grows

/-- The expression is one of a level, inside so much nesting and after so many words `not`. -/
inductive Nested : Precedence → (depth nots : Nat) → Expr → Prop
  | literal {depth nots : Nat} (fits : depth + nots ≤ maxNesting) (value : Literal) (span : Span) :
      Nested .atom depth nots (.literal value span)
  | var {depth nots : Nat} (fits : depth + nots ≤ maxNesting) (name : String) (span : Span) :
      Nested .atom depth nots (.var name span)
  | parens {depth nots : Nat} {expr : Expr}
      (inner : Nested .disjunction (depth + (nots + 1)) 0 expr) : Nested .atom depth nots expr
  | attr {depth nots : Nat} {target : Expr} (inner : Nested .accessed depth nots target)
      (name : String) (span : Span) : Nested .accessed depth nots (.attr target name span)
  | filter {depth nots : Nat} {target : Expr} {args : List Expr}
      (inner : Nested .filtered depth nots target)
      (each : ∀ arg ∈ args, Nested .disjunction (depth + 1) 0 arg) (awaited : Bool) (name : String)
      (nameSpan span : Span) :
      Nested .filtered depth nots (.filter awaited target name nameSpan args span)
  | negate {depth nots : Nat} {operand : Expr} (inner : Nested .negation depth (nots + 1) operand)
      (span : Span) : Nested .negation depth nots (.negate operand span)
  | binary (op : BinaryOp) {depth : Nat} {left right : Expr}
      (first : Nested op.leftLevel depth 0 left) (second : Nested op.rightLevel depth 0 right)
      (span : Span) : Nested op.level depth 0 (.binary op left right span)
  | of_tighter {loose tight : Precedence} {depth nots : Nat} {expr : Expr}
      (next : loose.tighter? = some tight) (inner : Nested tight depth nots expr) :
      Nested loose depth nots expr

namespace Nested

variable {level : Precedence} {depth nots : Nat} {expr : Expr}

theorem fits (nested : Nested level depth nots expr) : depth + nots ≤ maxNesting := by
  induction nested with
  | literal fits _ _ => exact fits
  | var fits _ _ => exact fits
  | parens _ ih => omega
  | attr _ _ _ ih => exact ih
  | filter _ _ _ _ _ _ ih _ => exact ih
  | negate _ _ ih => omega
  | binary _ _ _ _ ih _ => exact ih
  | of_tighter _ _ ih => exact ih

/-- Places do not matter. -/
theorem of_bare {tree : Expr} (nested : Nested level depth nots tree) (same : expr.bare = tree) :
    Nested level depth nots expr := by
  induction nested generalizing expr with
  | literal fits value span =>
      cases expr <;> cases same
      exact .literal fits value _
  | var fits name span =>
      cases expr <;> cases same
      exact .var fits name _
  | parens _ ih => exact .parens (ih same)
  | attr _ name span ih =>
      cases expr <;> cases same
      exact .attr (ih rfl) name _
  | filter _ _ awaited name nameSpan span ih each =>
      cases expr with
      | filter other target word place args span =>
          cases same
          refine .filter (ih rfl) (fun arg within => ?_) awaited name _ _
          refine each arg.bare ?_ rfl
          rw [listBare_eq_map]
          exact List.mem_map_of_mem within
      | _ => cases same
  | negate _ span ih =>
      cases expr <;> cases same
      exact .negate (ih rfl) _
  | binary op _ _ span first second =>
      cases expr <;> cases same
      exact .binary op (first rfl) (second rfl) _
  | of_tighter next _ ih => exact .of_tighter next (ih same)

/-- The parts of an expression are nested as well. -/
theorem exists_of_mem {sub : Expr} (nested : Nested level depth nots expr)
    (within : .expr sub ∈ expr.elements) : ∃ level depth nots, Nested level depth nots sub := by
  induction nested with
  | literal fits value span =>
      cases List.mem_singleton.mp within
      exact ⟨_, _, _, .literal fits value span⟩
  | var fits name span =>
      cases List.mem_singleton.mp within
      exact ⟨_, _, _, .var fits name span⟩
  | parens _ ih => exact ih within
  | attr inner name span ih =>
      rcases List.mem_cons.mp within with same | within
      · cases same
        exact ⟨_, _, _, .attr inner name span⟩
      · exact ih within
  | filter inner each awaited name nameSpan span ih others =>
      rcases List.mem_cons.mp within with same | within
      · cases same
        exact ⟨_, _, _, .filter inner each awaited name nameSpan span⟩
      · rcases List.mem_append.mp within with within | within
        · exact ih within
        · obtain ⟨arg, member, within⟩ := mem_listElements.mp within
          exact others arg member within
  | negate inner span ih =>
      rcases List.mem_cons.mp within with same | within
      · cases same
        exact ⟨_, _, _, .negate inner span⟩
      · exact ih within
  | binary op first second span ih others =>
      rcases List.mem_cons.mp within with same | within
      · cases same
        exact ⟨_, _, _, .binary op first second span⟩
      · rcases List.mem_append.mp within with within | within
        · exact ih within
        · exact others within
  | of_tighter _ _ ih => exact ih within

/-- The words `not` before the head of a filter are forgotten inside its arguments, so each level of
nesting may add as many as are still allowed there. -/
theorem nots_le_triangle (nested : Nested level depth nots expr) :
    nots + expr.nots ≤ triangle (maxNesting - depth) := by
  induction nested with
  | @literal depth _ fits _ _ =>
      have grows := le_triangle (maxNesting - depth)
      simp only [Expr.nots]
      omega
  | @var depth _ fits _ _ =>
      have grows := le_triangle (maxNesting - depth)
      simp only [Expr.nots]
      omega
  | @parens depth nots expr inner ih =>
      have fits := inner.fits
      have grows := triangle_add (maxNesting - (depth + (nots + 1))) (nots + 1)
      rw [show maxNesting - (depth + (nots + 1)) + (nots + 1) = maxNesting - depth by omega] at grows
      omega
  | attr _ _ _ ih => exact ih
  | @filter depth nots target args inner each _ _ _ _ ih others =>
      have fits := inner.fits
      have inside : listNots args ≤ triangle (maxNesting - depth) - nots := by
        refine listNots_le fun arg within => ?_
        have arguments := (each arg within).fits
        have bound := others arg within
        have step : triangle (maxNesting - depth) =
            triangle (maxNesting - (depth + 1)) + (maxNesting - depth) := by
          rw [show maxNesting - depth = maxNesting - (depth + 1) + 1 by omega, triangle]
        omega
      rw [Expr.nots]
      omega
  | negate _ _ ih =>
      rw [Expr.nots]
      omega
  | binary _ _ _ _ ih others =>
      rw [Expr.nots]
      omega
  | of_tighter _ _ ih => exact ih

end Nested

/-- The filters that are applied to the expression last take no arguments. -/
def Unargued : Expr → Prop
  | .filter _ target _ _ args _ => args = [] ∧ target.Unargued
  | _ => True

instance decidableUnargued : (expr : Expr) → Decidable expr.Unargued
  | .filter _ target _ _ args _ =>
    have := decidableUnargued target
    inferInstanceAs (Decidable (args = [] ∧ target.Unargued))
  | .literal _ _ | .var _ _ | .attr _ _ _ | .negate _ _ | .binary _ _ _ _ =>
    inferInstanceAs (Decidable True)

/-- If this is a negation, no filter that it applies to takes arguments. -/
def NotUnargued : Element → Prop
  | .expr (.negate operand _) => operand.Unargued
  | _ => True

instance : DecidablePred NotUnargued := fun
  | .node _ => inferInstanceAs (Decidable True)
  | .expr (.negate operand _) => inferInstanceAs (Decidable operand.Unargued)
  | .expr (.literal _ _) | .expr (.var _ _) | .expr (.attr _ _ _) | .expr (.filter _ _ _ _ _ _)
  | .expr (.binary _ _ _ _) => inferInstanceAs (Decidable True)

def NotsUnargued (expr : Expr) : Prop := ∀ element ∈ expr.elements, NotUnargued element

instance (expr : Expr) : Decidable expr.NotsUnargued :=
  inferInstanceAs (Decidable (∀ element ∈ expr.elements, NotUnargued element))

namespace Nested

variable {level : Precedence} {depth nots : Nat} {expr : Expr}

/-- The words `not` before an expression count everywhere inside it. -/
def Carried (level : Precedence) (nots : Nat) (expr : Expr) : Prop :=
  nots = 0 ∨ Precedence.accessed.rank ≤ level.rank ∨ expr.Unargued

theorem nots_le (nested : Nested level depth nots expr) (unargued : expr.NotsUnargued) :
    expr.nots ≤ maxNesting - depth ∧
      (Carried level nots expr → nots + expr.nots ≤ maxNesting - depth) := by
  induction nested with
  | literal fits _ _ =>
      simp only [Expr.nots]
      omega
  | var fits _ _ =>
      simp only [Expr.nots]
      omega
  | parens inner ih =>
      have fits := inner.fits
      have bound := (ih unargued).1
      omega
  | attr inner _ _ ih =>
      obtain ⟨-, carried⟩ := ih fun element within =>
        unargued element (List.mem_cons_of_mem _ within)
      have whole := carried (.inr (.inl (Nat.le_refl _)))
      rw [Expr.nots]
      exact ⟨by omega, fun _ => whole⟩
  | @filter depth nots target args inner each _ _ _ _ ih others =>
      obtain ⟨front, back⟩ := List.forall_mem_append.mp fun element within =>
        unargued element (List.mem_cons_of_mem _ within)
      obtain ⟨bound, carried⟩ := ih front
      have inside : listNots args ≤ maxNesting - depth := by
        refine listNots_le fun arg member => ?_
        have inner := others arg member fun element within =>
          back element (mem_listElements.mpr ⟨arg, member, within⟩)
        omega
      rw [Expr.nots]
      refine ⟨by omega, ?_⟩
      rintro (none | tight | ⟨nothing, last⟩)
      · omega
      · exact absurd tight (by decide)
      · have whole := carried (.inr (.inr last))
        rw [nothing, listNots]
        omega
  | negate inner _ ih =>
      obtain ⟨here, rest⟩ := List.forall_mem_cons.mp unargued
      have whole := (ih rest).2 (.inr (.inr here))
      rw [Expr.nots]
      omega
  | binary op first second _ ih others =>
      obtain ⟨front, back⟩ := List.forall_mem_append.mp fun element within =>
        unargued element (List.mem_cons_of_mem _ within)
      have left := (ih front).1
      have right := (others back).1
      rw [Expr.nots]
      omega
  | of_tighter next _ ih =>
      have rank := Precedence.rank_tighter next
      refine ⟨(ih unargued).1, fun carried => (ih unargued).2 ?_⟩
      rcases carried with none | tight | last
      · exact .inl none
      · exact .inr (.inl (by omega))
      · exact .inr (.inr last)

end Nested

/-- The expression is within both limits. -/
structure Fits (expr : Expr) : Prop where
  nested : ∃ level depth nots, Nested level depth nots expr
  operators : expr.operators ≤ maxOperators

theorem Fits.of_mem {expr sub : Expr} (fits : expr.Fits) (within : .expr sub ∈ expr.elements) :
    sub.Fits := by
  obtain ⟨_, _, _, nested⟩ := fits.nested
  exact ⟨nested.exists_of_mem within, Nat.le_trans (operators_le within) fits.operators⟩

end Expr

end QueryTemplate
