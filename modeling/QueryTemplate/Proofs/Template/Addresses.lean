import Mathlib.Data.List.Basic
import Mathlib.Data.Option.Basic
import Mathlib.Tactic.Choose
import QueryTemplate.Proofs.Template.Parts

set_option autoImplicit false

/- Addresses in the tree of a template. An address leads to an element from the top: at each step it
gives the index of the next element among the parts of the last. The elements of a template are what
stands at its addresses, in the order of the addresses. -/

namespace QueryTemplate

universe u

namespace Element

/-- What an element is directly made of, in document order. -/
def children : Element → List Element
  | node (.text _ _) => []
  | node (.output value _) => [expr value]
  | node (.branch arms otherwise _) =>
    (arms.flatMap fun arm => expr arm.1 :: arm.2.map node) ++ (otherwise.getD []).map node
  | node (.loop _ _ iterable body _) => expr iterable :: body.map node
  | node (.assign _ _ value _) => [expr value]
  | node (.tag _ _ args body _) => args.map (expr ·.value) ++ (body.getD []).map node
  | expr value => value.parts.map expr

/-- The element that an address leads to from here. -/
def below? (element : Element) : List Nat → Option Element
  | [] => some element
  | index :: rest => element.children[index]?.bind fun child => child.below? rest

/-- The element that an address leads to from several, one of which it begins with. -/
def among? (elements : List Element) : List Nat → Option Element
  | [] => none
  | index :: rest => elements[index]?.bind fun element => element.below? rest

end Element

/-- The element at an address of a template. -/
def Template.at? (template : Template) (address : List Nat) : Option Element :=
  Element.among? (template.map .node) address

/-- An element before all that it is made of. -/
def Element.subtree : Element → List Element
  | node value => value.elements
  | expr value => value.elements

theorem Node.listElements_eq_flatMap (nodes : List Node) :
    listElements nodes = (nodes.map Element.node).flatMap Element.subtree := by
  induction nodes with
  | nil => rfl
  | cons node rest ih =>
      rw [listElements, ih]
      rfl

theorem Node.armElements_eq_flatMap (arms : List (Expr × List Node)) :
    armElements arms = (arms.flatMap fun arm =>
      Element.expr arm.1 :: arm.2.map Element.node).flatMap Element.subtree := by
  induction arms with
  | nil => rfl
  | cons arm rest ih =>
      rw [armElements, ih, listElements_eq_flatMap, List.flatMap_cons, List.flatMap_append,
        List.flatMap_cons]
      rfl

theorem Arg.elements_eq_flatMap (args : List Arg) :
    args.flatMap (·.value.elements) =
      (args.map fun arg => Element.expr arg.value).flatMap Element.subtree := by
  rw [List.flatMap_map]
  rfl

namespace Element

theorem subtree_eq (element : Element) :
    element.subtree = element :: element.children.flatMap subtree := by
  cases element with
  | expr value =>
      rw [subtree, Expr.elements_eq, children, List.flatMap_map]
      rfl
  | node value =>
      rw [subtree]
      cases value with
      | text => rfl
      | output value => simp [Node.elements, children, subtree]
      | branch arms otherwise =>
          cases otherwise with
          | none => simp [Node.elements, children, Node.armElements_eq_flatMap]
          | some otherwise =>
              simp [Node.elements, children, Node.armElements_eq_flatMap,
                Node.listElements_eq_flatMap]
      | loop _ _ iterable body =>
          simp [Node.elements, children, Node.listElements_eq_flatMap, subtree]
      | assign _ _ value => simp [Node.elements, children, subtree]
      | tag _ _ args body =>
          cases body with
          | none => simp [Node.elements, children, Arg.elements_eq_flatMap]
          | some body =>
              simp [Node.elements, children, Arg.elements_eq_flatMap,
                Node.listElements_eq_flatMap]

end Element

section Induction

variable {motive : Element → Prop}

theorem Expr.induct_children
    (step : ∀ element : Element, (∀ child ∈ element.children, motive child) → motive element)
    (expr : Expr) : motive (.expr expr) := by
  induction expr using induct_parts with
  | step expr ih =>
      refine step _ fun child within => ?_
      obtain ⟨part, listed, rfl⟩ := List.mem_map.mp within
      exact ih part listed

theorem Arg.induct_children
    (step : ∀ element : Element, (∀ child ∈ element.children, motive child) → motive element)
    (args : List Arg) : ∀ child ∈ args.map (Element.expr ·.value), motive child := by
  intro child within
  obtain ⟨arg, -, rfl⟩ := List.mem_map.mp within
  exact arg.value.induct_children step

mutual

theorem Node.induct_children
    (step : ∀ element : Element, (∀ child ∈ element.children, motive child) → motive element)
    (node : Node) : motive (.node node) := by
  match node with
  | .text _ _ => exact step _ fun _ within => nomatch within
  | .output expr _ => exact step _ (List.forall_mem_singleton.mpr (expr.induct_children step))
  | .branch arms none _ =>
      refine step _ (List.forall_mem_append.mpr ⟨armsInduct_children step arms, ?_⟩)
      exact fun _ within => nomatch within
  | .branch arms (some otherwise) _ =>
      exact step _ (List.forall_mem_append.mpr
        ⟨armsInduct_children step arms, listInduct_children step otherwise⟩)
  | .loop _ _ iterable body _ =>
      exact step _ (List.forall_mem_cons.mpr
        ⟨iterable.induct_children step, listInduct_children step body⟩)
  | .assign _ _ value _ =>
      exact step _ (List.forall_mem_singleton.mpr (value.induct_children step))
  | .tag _ _ args none _ =>
      refine step _ (List.forall_mem_append.mpr ⟨Arg.induct_children step args, ?_⟩)
      exact fun _ within => nomatch within
  | .tag _ _ args (some body) _ =>
      exact step _ (List.forall_mem_append.mpr
        ⟨Arg.induct_children step args, listInduct_children step body⟩)

theorem Node.armsInduct_children
    (step : ∀ element : Element, (∀ child ∈ element.children, motive child) → motive element)
    (arms : List (Expr × List Node)) :
    ∀ child ∈ arms.flatMap fun arm => Element.expr arm.1 :: arm.2.map Element.node,
      motive child := by
  match arms with
  | [] => exact fun _ within => nomatch within
  | (condition, body) :: rest =>
      rw [List.flatMap_cons, List.forall_mem_append]
      refine ⟨List.forall_mem_cons.mpr ⟨condition.induct_children step, ?_⟩,
        armsInduct_children step rest⟩
      exact listInduct_children step body

theorem Node.listInduct_children
    (step : ∀ element : Element, (∀ child ∈ element.children, motive child) → motive element)
    (nodes : List Node) : ∀ child ∈ nodes.map Element.node, motive child := by
  match nodes with
  | [] => exact fun _ within => nomatch within
  | node :: rest =>
      exact List.forall_mem_cons.mpr ⟨node.induct_children step, listInduct_children step rest⟩

end

/-- What holds of an element whenever it holds of its parts holds of every element. -/
theorem Element.induct_children
    (step : ∀ element : Element, (∀ child ∈ element.children, motive child) → motive element)
    (element : Element) : motive element := by
  cases element with
  | node value => exact value.induct_children step
  | expr value => exact value.induct_children step

end Induction

/-- Addresses in their order, all at which there is an element, and the elements there. -/
structure Enumerates (at? : List Nat → Option Element) (addresses : List (List Nat))
    (elements : List Element) : Prop where
  ascending : addresses.Pairwise (· < ·)
  complete : ∀ address, address ∈ addresses ↔ (at? address).isSome
  found : addresses.map at? = elements.map some

/-- An address goes with an element just when it leads there. -/
theorem Enumerates.mem_zip {at? : List Nat → Option Element} {addresses : List (List Nat)}
    {elements : List Element} (enumerates : Enumerates at? addresses elements)
    {address : List Nat} {element : Element} :
    (address, element) ∈ addresses.zip elements ↔ at? address = some element := by
  have same (index : Nat) : addresses[index]?.map at? = elements[index]?.map some := by
    rw [← List.getElem?_map, ← List.getElem?_map, enumerates.found]
  rw [List.mem_iff_getElem?]
  constructor
  · rintro ⟨index, paired⟩
    obtain ⟨first, second⟩ := List.getElem?_zip_eq_some.mp paired
    have leads := same index
    rw [first, second] at leads
    exact Option.some.inj leads
  · intro leads
    have listed := (enumerates.complete address).mpr (by rw [leads]; rfl)
    obtain ⟨index, first⟩ := List.mem_iff_getElem?.mp listed
    have second := same index
    rw [first, Option.map_some, leads] at second
    obtain ⟨other, second, equal⟩ := Option.map_eq_some_iff.mp second.symm
    cases equal
    exact ⟨index, List.getElem?_zip_eq_some.mpr ⟨first, second⟩⟩

theorem pairwise_zipIdx {α : Type u} (items : List α) :
    items.zipIdx.Pairwise fun first second => first.2 < second.2 := by
  refine List.pairwise_map.mp ?_
  rw [List.zipIdx_map_snd]
  exact List.pairwise_lt_range'

namespace Element

/-- Addresses from several elements on, each behind the index of its element. -/
def spread (below : Element → List (List Nat)) (elements : List Element) : List (List Nat) :=
  elements.zipIdx.flatMap fun item => (below item.1).map (item.2 :: ·)

section Spread

variable {below : Element → List (List Nat)} {elements : List Element}

theorem mem_spread {address : List Nat} :
    address ∈ spread below elements ↔ ∃ index element rest,
      elements[index]? = some element ∧ rest ∈ below element ∧ address = index :: rest := by
  simp only [spread, List.mem_flatMap, List.mem_map, Prod.exists, List.mem_zipIdx_iff_getElem?]
  constructor
  · rintro ⟨element, index, first, rest, listed, rfl⟩
    exact ⟨index, element, rest, first, listed, rfl⟩
  · rintro ⟨index, element, rest, first, listed, rfl⟩
    exact ⟨element, index, first, rest, listed, rfl⟩

theorem spread_ascend (each : ∀ element ∈ elements, (below element).Pairwise (· < ·)) :
    (spread below elements).Pairwise (· < ·) := by
  refine List.pairwise_flatMap.mpr ⟨?_, (pairwise_zipIdx elements).imp ?_⟩
  · rintro ⟨element, index⟩ within
    have member := List.mem_of_getElem? (List.mem_zipIdx_iff_getElem?.mp within)
    refine List.pairwise_map.mpr ((each element member).imp fun before => ?_)
    exact List.cons_lt_cons_iff.mpr (Or.inr ⟨rfl, before⟩)
  · intro item other before address within address' within'
    obtain ⟨rest, -, rfl⟩ := List.mem_map.mp within
    obtain ⟨others, -, rfl⟩ := List.mem_map.mp within'
    exact List.cons_lt_cons_iff.mpr (Or.inl before)

theorem map_spread (each : ∀ element ∈ elements,
      (below element).map element.below? = element.subtree.map some) :
    (spread below elements).map (among? elements) = (elements.flatMap subtree).map some := by
  have flat : elements.flatMap subtree = elements.zipIdx.flatMap fun item => item.1.subtree := by
    rw [← List.flatMap_map (f := Prod.fst), List.zipIdx_map_fst]
  rw [flat, spread, List.map_flatMap, List.map_flatMap]
  refine List.flatMap_congr fun item within => ?_
  have placed := List.mem_zipIdx_iff_getElem?.mp within
  rw [← each item.1 (List.mem_of_getElem? placed), List.map_map]
  refine List.map_congr_left fun rest _ => ?_
  rw [Function.comp_apply, among?, placed, Option.bind_some]

end Spread

/-- The addresses of several elements, each below its own index. -/
theorem enumerates_among {elements : List Element}
    (each : ∀ element ∈ elements, ∃ addresses, Enumerates element.below? addresses element.subtree) :
    ∃ addresses, Enumerates (among? elements) addresses (elements.flatMap subtree) := by
  choose! below each using each
  refine ⟨spread below elements, spread_ascend fun element within => ?_, fun address => ?_,
    map_spread fun element within => ?_⟩
  case refine_1 => exact (each element within).ascending
  case refine_3 => exact (each element within).found
  rw [mem_spread]
  constructor
  · rintro ⟨index, element, rest, first, listed, rfl⟩
    rw [among?, first, Option.bind_some]
    exact ((each element (List.mem_of_getElem? first)).complete rest).mp listed
  · intro there
    cases address with
    | nil => cases there
    | cons index rest =>
        rw [among?] at there
        obtain ⟨element, first⟩ := Option.isSome_iff_exists.mp (Option.isSome_of_isSome_bind there)
        rw [first, Option.bind_some] at there
        have listed := ((each element (List.mem_of_getElem? first)).complete rest).mpr there
        exact ⟨index, element, rest, first, listed, rfl⟩

end Element

/-- An element comes first, at the empty address. -/
theorem Element.enumerates_below (element : Element) :
    ∃ addresses, Enumerates element.below? addresses element.subtree := by
  induction element using induct_children with
  | step element ih =>
      obtain ⟨addresses, ascending, complete, found⟩ := enumerates_among ih
      refine ⟨[] :: addresses, List.pairwise_cons.mpr ⟨?_, ascending⟩, ?_, ?_⟩
      · rintro (_ | ⟨index, rest⟩) within
        · cases (complete []).mp within
        · exact List.nil_lt_cons index rest
      · rintro (_ | ⟨index, rest⟩)
        · simp [below?]
        · rw [List.mem_cons, complete]
          exact or_iff_right (List.cons_ne_nil _ _)
      · have same : addresses.map element.below? = addresses.map (among? element.children) := by
          refine List.map_congr_left fun address within => ?_
          cases address with
          | nil => cases (complete []).mp within
          | cons index rest => rfl
        rw [subtree_eq, List.map_cons, List.map_cons, same, found, below?]

/-- The elements of a template are what stands at its addresses, each once and in their order. -/
theorem Template.enumerates (template : Template) :
    ∃ addresses, Enumerates template.at? addresses template.elements := by
  have whole := Element.enumerates_among fun element (_ : element ∈ template.map Element.node) =>
    element.enumerates_below
  rw [← Node.listElements_eq_flatMap] at whole
  exact whole

theorem Template.mem_elements_iff {template : Template} {element : Element} :
    element ∈ template.elements ↔ ∃ address, template.at? address = some element := by
  obtain ⟨addresses, enumerates⟩ := template.enumerates
  rw [← List.mem_map_of_injective (Option.some_injective Element), ← enumerates.found,
    List.mem_map]
  constructor
  · rintro ⟨address, -, there⟩
    exact ⟨address, there⟩
  · rintro ⟨address, there⟩
    exact ⟨address, (enumerates.complete address).mpr (by rw [there]; rfl), there⟩

/-- The items that elements of a template give, one for each address at which an element gives one,
in the order of the addresses. -/
def Template.Gathers {α : Type} (template : Template) (gives : Element → Option α)
    (items : List α) : Prop :=
  ∃ addresses : List (List Nat), addresses.Pairwise (· < ·) ∧
    (∀ address, address ∈ addresses ↔
      ∃ element item, template.at? address = some element ∧ gives element = some item) ∧
    addresses.map (fun address => (template.at? address).bind gives) = items.map some

theorem Template.gathers {α : Type} (template : Template) (gives : Element → Option α) :
    template.Gathers gives (template.elements.filterMap gives) := by
  obtain ⟨addresses, ascending, complete, found⟩ := template.enumerates
  refine ⟨addresses.filter fun address => ((template.at? address).bind gives).isSome,
    ascending.sublist List.filter_sublist, fun address => ?_, ?_⟩
  · rw [List.mem_filter, complete]
    simp only [Option.isSome_iff_exists, Option.bind_eq_some_iff]
    constructor
    · rintro ⟨-, item, element, there, given⟩
      exact ⟨element, item, there, given⟩
    · rintro ⟨element, item, there, given⟩
      exact ⟨⟨element, there⟩, item, element, there, given⟩
  · have given : template.elements.map gives =
        addresses.map fun address => (template.at? address).bind gives := by
      have bound := congrArg (List.map fun element => element.bind gives) found
      rw [List.map_map, List.map_map] at bound
      exact bound.symm
    rw [List.map_filterMap_some_eq_filter_map_isSome, given, List.filter_map]
    rfl

end QueryTemplate
