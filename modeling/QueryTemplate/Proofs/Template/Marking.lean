import QueryTemplate.Proofs.Template.Revision

set_option autoImplicit false

/- Laws of revisions: two of them one after the other are one revision, and what a revision makes of
a tree depends only on what it does to the literals and filters that occur there. Marking filters as
awaited is exact by these laws: it marks the filters with the given names and nothing else, and to
take the marks off gives the tree back. -/

namespace QueryTemplate

def Revision.andThen (first second : Revision) : Revision where
  literal value := second.literal (first.literal value)
  awaited awaited name := second.awaited (first.awaited awaited name) name

section

variable (first second : Revision)

mutual

theorem Expr.revise_revise (expr : Expr) :
    (expr.revise first).revise second = expr.revise (first.andThen second) := by
  match expr with
  | .literal _ _ => rfl
  | .var _ _ => rfl
  | .attr target _ _ => simp only [Expr.revise, Expr.revise_revise target]
  | .filter _ target _ _ args _ =>
      simp only [Expr.revise, Expr.revise_revise target, Expr.listRevise_listRevise args,
        Revision.andThen]
  | .negate operand _ => simp only [Expr.revise, Expr.revise_revise operand]
  | .binary _ left right _ =>
      simp only [Expr.revise, Expr.revise_revise left, Expr.revise_revise right]

theorem Expr.listRevise_listRevise (exprs : List Expr) :
    Expr.listRevise second (Expr.listRevise first exprs) =
      Expr.listRevise (first.andThen second) exprs := by
  match exprs with
  | [] => rfl
  | expr :: rest =>
      simp only [Expr.listRevise, Expr.revise_revise expr, Expr.listRevise_listRevise rest]

end

theorem Arg.revise_revise (args : List Arg) :
    (args.map (·.revise first)).map (·.revise second) =
      args.map (·.revise (first.andThen second)) := by
  rw [List.map_map]
  refine List.map_congr_left fun arg _ => ?_
  cases arg <;> simp only [Function.comp, Arg.revise, Expr.revise_revise]

mutual

theorem Node.revise_revise (node : Node) :
    (node.revise first).revise second = node.revise (first.andThen second) := by
  match node with
  | .text _ _ => rfl
  | .output _ _ => simp only [Node.revise, Expr.revise_revise]
  | .branch arms none _ => simp only [Node.revise, Node.armsRevise_armsRevise arms]
  | .branch arms (some otherwise) _ =>
      simp only [Node.revise, Node.armsRevise_armsRevise arms, Node.listRevise_listRevise otherwise]
  | .loop _ _ _ body _ =>
      simp only [Node.revise, Expr.revise_revise, Node.listRevise_listRevise body]
  | .assign _ _ _ _ => simp only [Node.revise, Expr.revise_revise]
  | .tag _ _ _ none _ => simp only [Node.revise, Arg.revise_revise]
  | .tag _ _ _ (some body) _ =>
      simp only [Node.revise, Arg.revise_revise, Node.listRevise_listRevise body]

theorem Node.armsRevise_armsRevise (arms : List (Expr × List Node)) :
    Node.armsRevise second (Node.armsRevise first arms) =
      Node.armsRevise (first.andThen second) arms := by
  match arms with
  | [] => rfl
  | (_, body) :: rest =>
      simp only [Node.armsRevise, Expr.revise_revise, Node.listRevise_listRevise body,
        Node.armsRevise_armsRevise rest]

theorem Node.listRevise_listRevise (nodes : List Node) :
    Node.listRevise second (Node.listRevise first nodes) =
      Node.listRevise (first.andThen second) nodes := by
  match nodes with
  | [] => rfl
  | node :: rest =>
      simp only [Node.listRevise, Node.revise_revise node, Node.listRevise_listRevise rest]

end

theorem Template.revise_revise (template : Template) :
    (template.revise first).revise second = template.revise (first.andThen second) :=
  Node.listRevise_listRevise first second template

end

/-- Two revisions do the same to an element itself, its parts aside. -/
def Revision.Agree (r other : Revision) : Element → Prop
  | .expr (.literal value _) => r.literal value = other.literal value
  | .expr (.filter awaited _ name _ _ _) => r.awaited awaited name = other.awaited awaited name
  | _ => True

/-- Two revisions do the same to each of some elements. -/
def Revision.AgreeOn (r other : Revision) (elements : List Element) : Prop :=
  ∀ element ∈ elements, r.Agree other element

section

variable {r other : Revision} {elements more : List Element}

theorem Revision.AgreeOn.of_filters (literals : r.literal = other.literal)
    (filters : ∀ awaited target name nameSpan args span,
      .expr (.filter awaited target name nameSpan args span) ∈ elements →
        r.awaited awaited name = other.awaited awaited name) : r.AgreeOn other elements := by
  intro element within
  unfold Agree
  split
  next value _ => exact congrFun literals value
  next awaited target name nameSpan args span =>
    exact filters awaited target name nameSpan args span within
  next => trivial

theorem Revision.AgreeOn.mono (agree : r.AgreeOn other elements) (contained : more ⊆ elements) :
    r.AgreeOn other more := fun element within => agree element (contained within)

theorem Revision.AgreeOn.tail {element : Element} (agree : r.AgreeOn other (element :: elements)) :
    r.AgreeOn other elements := agree.mono (List.subset_cons_self _ _)

theorem Revision.AgreeOn.front (agree : r.AgreeOn other (elements ++ more)) :
    r.AgreeOn other elements := agree.mono (List.subset_append_left _ _)

theorem Revision.AgreeOn.back (agree : r.AgreeOn other (elements ++ more)) :
    r.AgreeOn other more := agree.mono (List.subset_append_right _ _)

mutual

theorem Expr.revise_congr (expr : Expr) (agree : r.AgreeOn other expr.elements) :
    expr.revise r = expr.revise other := by
  match expr with
  | .literal value span =>
      have own : r.literal value = other.literal value := agree _ List.mem_cons_self
      rw [Expr.revise, Expr.revise, own]
  | .var _ _ => rfl
  | .attr target _ _ => rw [Expr.revise, Expr.revise, target.revise_congr agree.tail]
  | .filter awaited target name _ args _ =>
      have own : r.awaited awaited name = other.awaited awaited name := agree _ List.mem_cons_self
      rw [Expr.revise, Expr.revise, own, target.revise_congr agree.tail.front,
        Expr.listRevise_congr args agree.tail.back]
  | .negate operand _ => rw [Expr.revise, Expr.revise, operand.revise_congr agree.tail]
  | .binary _ left right _ =>
      rw [Expr.revise, Expr.revise, left.revise_congr agree.tail.front,
        right.revise_congr agree.tail.back]

theorem Expr.listRevise_congr (exprs : List Expr)
    (agree : r.AgreeOn other (Expr.listElements exprs)) :
    Expr.listRevise r exprs = Expr.listRevise other exprs := by
  match exprs with
  | [] => rfl
  | expr :: rest =>
      rw [Expr.listRevise, Expr.listRevise, expr.revise_congr agree.front,
        Expr.listRevise_congr rest agree.back]

end

theorem Arg.revise_congr (args : List Arg)
    (agree : r.AgreeOn other (args.flatMap (·.value.elements))) :
    args.map (·.revise r) = args.map (·.revise other) := by
  refine List.map_congr_left fun arg within => ?_
  have own : r.AgreeOn other arg.value.elements :=
    agree.mono fun element inner => List.mem_flatMap.mpr ⟨arg, within, inner⟩
  cases arg with
  | positional value => rw [Arg.revise, Arg.revise, value.revise_congr own]
  | keyword _ _ value => rw [Arg.revise, Arg.revise, value.revise_congr own]

mutual

theorem Node.revise_congr (node : Node) (agree : r.AgreeOn other node.elements) :
    node.revise r = node.revise other := by
  match node with
  | .text _ _ => rfl
  | .output expr _ => rw [Node.revise, Node.revise, expr.revise_congr agree.tail]
  | .branch arms none _ => rw [Node.revise, Node.revise, Node.armsRevise_congr arms agree.tail]
  | .branch arms (some otherwise) _ =>
      rw [Node.revise, Node.revise, Node.armsRevise_congr arms agree.tail.front,
        Node.listRevise_congr otherwise agree.tail.back]
  | .loop _ _ iterable body _ =>
      rw [Node.revise, Node.revise, iterable.revise_congr agree.tail.front,
        Node.listRevise_congr body agree.tail.back]
  | .assign _ _ value _ => rw [Node.revise, Node.revise, value.revise_congr agree.tail]
  | .tag _ _ args none _ => rw [Node.revise, Node.revise, Arg.revise_congr args agree.tail]
  | .tag _ _ args (some body) _ =>
      rw [Node.revise, Node.revise, Arg.revise_congr args agree.tail.front,
        Node.listRevise_congr body agree.tail.back]

theorem Node.armsRevise_congr (arms : List (Expr × List Node))
    (agree : r.AgreeOn other (Node.armElements arms)) :
    Node.armsRevise r arms = Node.armsRevise other arms := by
  match arms with
  | [] => rfl
  | (condition, body) :: rest =>
      rw [Node.armsRevise, Node.armsRevise, condition.revise_congr agree.front.front,
        Node.listRevise_congr body agree.front.back, Node.armsRevise_congr rest agree.back]

theorem Node.listRevise_congr (nodes : List Node)
    (agree : r.AgreeOn other (Node.listElements nodes)) :
    Node.listRevise r nodes = Node.listRevise other nodes := by
  match nodes with
  | [] => rfl
  | node :: rest =>
      rw [Node.listRevise, Node.listRevise, node.revise_congr agree.front,
        Node.listRevise_congr rest agree.back]

end

theorem Template.revise_congr {template : Template}
    (agree : r.AgreeOn other (Template.elements template)) :
    template.revise r = template.revise other := Node.listRevise_congr template agree

end

def Revision.same : Revision where
  literal value := value
  awaited awaited _ := awaited

mutual

theorem Expr.revise_same (expr : Expr) : expr.revise .same = expr := by
  match expr with
  | .literal _ _ => rfl
  | .var _ _ => rfl
  | .attr target _ _ => rw [Expr.revise, target.revise_same]
  | .filter _ target _ _ args _ =>
      rw [Expr.revise, target.revise_same, Expr.listRevise_same args, Revision.same]
  | .negate operand _ => rw [Expr.revise, operand.revise_same]
  | .binary _ left right _ => rw [Expr.revise, left.revise_same, right.revise_same]

theorem Expr.listRevise_same (exprs : List Expr) : Expr.listRevise .same exprs = exprs := by
  match exprs with
  | [] => rfl
  | expr :: rest => rw [Expr.listRevise, expr.revise_same, Expr.listRevise_same rest]

end

theorem Arg.revise_same (args : List Arg) : args.map (·.revise .same) = args := by
  refine List.map_id'' (fun arg => ?_) args
  cases arg <;> rw [Arg.revise, Expr.revise_same]

mutual

theorem Node.revise_same (node : Node) : node.revise .same = node := by
  match node with
  | .text _ _ => rfl
  | .output expr _ => rw [Node.revise, expr.revise_same]
  | .branch arms none _ => rw [Node.revise, Node.armsRevise_same arms]
  | .branch arms (some otherwise) _ =>
      rw [Node.revise, Node.armsRevise_same arms, Node.listRevise_same otherwise]
  | .loop _ _ iterable body _ =>
      rw [Node.revise, iterable.revise_same, Node.listRevise_same body]
  | .assign _ _ value _ => rw [Node.revise, value.revise_same]
  | .tag _ _ args none _ => rw [Node.revise, Arg.revise_same args]
  | .tag _ _ args (some body) _ =>
      rw [Node.revise, Arg.revise_same args, Node.listRevise_same body]

theorem Node.armsRevise_same (arms : List (Expr × List Node)) :
    Node.armsRevise .same arms = arms := by
  match arms with
  | [] => rfl
  | (condition, body) :: rest =>
      rw [Node.armsRevise, condition.revise_same, Node.listRevise_same body,
        Node.armsRevise_same rest]

theorem Node.listRevise_same (nodes : List Node) : Node.listRevise .same nodes = nodes := by
  match nodes with
  | [] => rfl
  | node :: rest => rw [Node.listRevise, node.revise_same, Node.listRevise_same rest]

end

/-- A revision that leaves every literal and every mark of a tree as it is leaves the tree. -/
theorem Template.revise_eq_self {r : Revision} {template : Template}
    (agree : r.AgreeOn .same (Template.elements template)) : template.revise r = template :=
  (revise_congr agree).trans (Node.listRevise_same template)

/-- Takes the mark off every filter. -/
def Revision.unmarking : Revision where
  literal value := value
  awaited _ _ := false

namespace Template

variable {names others : List String} {template : Template}

/-- To mark the filters of two lists of names is to mark those of any list that has the names of
both. -/
theorem awaiting_awaiting {union : List String}
    (same : ∀ name, name ∈ union ↔ name ∈ names ∨ name ∈ others) :
    (template.awaiting names).awaiting others = template.awaiting union := by
  have joined : (Revision.awaiting names).andThen (Revision.awaiting others) =
      Revision.awaiting union := by
    have either (name : String) :
        union.contains name = (names.contains name || others.contains name) := by
      rw [Bool.eq_iff_iff, Bool.or_eq_true]
      simpa only [List.contains_iff_mem] using same name
    simp only [Revision.andThen, Revision.awaiting, either, Bool.or_assoc, id_eq]
    rfl
  rw [awaiting_eq_revise, awaiting_eq_revise, awaiting_eq_revise, revise_revise, joined]

/-- No mark is put on a filter that is not named. -/
theorem awaiting_eq_self
    (unnamed : ∀ awaited target name nameSpan args span,
      .expr (.filter awaited target name nameSpan args span) ∈ template.elements → name ∉ names) :
    template.awaiting names = template := by
  rw [awaiting_eq_revise]
  refine revise_eq_self (.of_filters rfl fun awaited target name nameSpan args span within => ?_)
  have other := unnamed awaited target name nameSpan args span within
  rw [← List.contains_iff_mem, Bool.not_eq_true] at other
  simp only [Revision.awaiting, Revision.same, other, Bool.or_false]

/-- To take off the marks of a tree that had none gives the tree back. -/
theorem unmarking_awaiting
    (plain : ∀ element ∈ template.elements, element.kind ≠ .awaitedFilter) :
    (template.awaiting names).revise .unmarking = template := by
  rw [awaiting_eq_revise, revise_revise]
  refine revise_eq_self (.of_filters rfl fun awaited target name nameSpan args span within => ?_)
  cases awaited with
  | true => exact absurd rfl (plain _ within)
  | false => rfl

/-- A filter of the marked tree is marked if it is named or was marked before. -/
theorem mem_elements_awaiting {awaited : Bool} {target : Expr} {name : String} {nameSpan span : Span}
    {args : List Expr}
    (within : .expr (.filter awaited target name nameSpan args span) ∈
      (template.awaiting names).elements) :
    ∃ before target args, .expr (.filter before target name nameSpan args span) ∈ template.elements ∧
      awaited = (before || names.contains name) := by
  rw [awaiting_eq_revise, elements_revise] at within
  obtain ⟨element, listed, same⟩ := List.mem_map.mp within
  unfold Element.revise at same
  split at same
  next => cases same
  next value =>
    unfold Expr.revise at same
    split at same <;> cases same
    exact ⟨_, _, _, listed, rfl⟩

/-- In a tree without marks, marking puts one on exactly the filters that are named, wherever they
stand. To take the marks off gives the tree back, with every place; to mark two lists of names one
after the other is to mark both at once, so to mark one list twice changes nothing more; and a tree
in which no filter is named stays as it is. -/
theorem awaiting_exact (plain : ∀ element ∈ template.elements, element.kind ≠ .awaitedFilter)
    (names others : List String) :
    let marked := template.awaiting names
    marked.revise .unmarking = template ∧
      (∀ awaited target name nameSpan args span,
        .expr (.filter awaited target name nameSpan args span) ∈ marked.elements →
          (awaited = true ↔ name ∈ names)) ∧
      (∀ union : List String, (∀ name, name ∈ union ↔ name ∈ names ∨ name ∈ others) →
        marked.awaiting others = template.awaiting union) ∧
      marked.awaiting names = marked ∧
      ((∀ awaited target name nameSpan args span,
        .expr (.filter awaited target name nameSpan args span) ∈ template.elements →
          name ∉ names) → marked = template) := by
  refine ⟨unmarking_awaiting plain, ?_, fun union => awaiting_awaiting, ?_, awaiting_eq_self⟩
  · intro awaited target name nameSpan args span within
    obtain ⟨before, _, _, listed, rfl⟩ := mem_elements_awaiting within
    cases before with
    | true => exact absurd rfl (plain _ listed)
    | false => rw [Bool.false_or, List.contains_iff_mem]
  · exact awaiting_awaiting fun name => (or_self_iff).symm

/-- The filter `f` occurs in a condition, in the argument of another filter and in that of a tag. -/
theorem awaiting_exact_nested :
    let name (word : String) (place : Nat) : Expr := .var word ⟨place, place + 1⟩
    let f (target : Expr) (place : Nat) : Expr :=
      .filter false target "f" ⟨place, place + 1⟩ [] ⟨place - 2, place + 1⟩
    let g : Expr := .filter false (name "b" 20) "g" ⟨22, 23⟩ [f (name "c" 24) 26] ⟨20, 28⟩
    let template : Template := [.branch [(f (name "a" 6) 8, [.output g ⟨17, 31⟩])]
      (some [.tag "t" ⟨45, 46⟩ [.positional (f (name "d" 47) 49)] none ⟨42, 53⟩]) ⟨0, 12⟩]
    let marked := template.awaiting ["f"]
    (∀ element ∈ template.elements, element.kind ≠ .awaitedFilter) ∧
      marked.elements.map Element.kind = [.branch, .awaitedFilter, .var, .output, .filter, .var,
        .awaitedFilter, .var, .tag, .awaitedFilter, .var] ∧
      marked.revise .unmarking = template ∧
      marked.awaiting ["g"] = template.awaiting ["g", "f"] ∧ marked.awaiting ["f"] = marked := by
  intro name f g template marked
  have plain : ∀ element ∈ template.elements, element.kind ≠ .awaitedFilter := by decide
  obtain ⟨restored, -, joined, again, -⟩ := awaiting_exact plain ["f"] ["g"]
  refine ⟨plain, by decide, restored, joined _ fun name => ?_, again⟩
  simp [or_comm]

end Template

end QueryTemplate
