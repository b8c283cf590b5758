import Mathlib.Data.List.Perm.Basic
import QueryTemplate.Proofs.Template.Parts

set_option autoImplicit false

/- The symbols of a template are those that its elements name. -/

namespace QueryTemplate

/-- The tag or filter that an element names itself. -/
def Element.symbol? : Element → Option Symbol
  | .node (.tag name nameSpan _ _ _) => some ⟨.tag, name, nameSpan⟩
  | .expr (.filter _ _ name nameSpan _ _) => some ⟨.filter, name, nameSpan⟩
  | _ => none

/-- The tags and filters that are named by elements. -/
def Element.symbols (elements : List Element) : List Symbol := elements.filterMap symbol?

theorem Element.symbols_append (first second : List Element) :
    symbols (first ++ second) = symbols first ++ symbols second := List.filterMap_append

theorem Element.symbols_flatMap {α : Type} (items : List α) (elements : α → List Element) :
    symbols (items.flatMap elements) = items.flatMap fun item => symbols (elements item) :=
  List.filterMap_flatMap ..

/-- The target of a filter is named before the filter, and comes after it among the elements. -/
theorem Expr.symbols_perm (expr : Expr) : expr.symbols.Perm (Element.symbols expr.elements) := by
  induction expr using induct_parts with
  | step expr ih =>
      have parts : (expr.parts.flatMap symbols).Perm
          (Element.symbols (expr.parts.flatMap elements)) := by
        rw [Element.symbols_flatMap]
        exact List.Perm.flatMap_left _ ih
      rw [elements_eq]
      cases expr with
      | filter _ target _ _ args _ =>
          rw [symbols, listSymbols_eq_flatMap]
          exact List.perm_middle.trans (parts.cons _)
      | _ =>
          simp only [Expr.parts, List.flatMap_cons, List.flatMap_nil, List.append_nil] at parts ⊢
          exact parts

theorem Arg.symbols_perm (args : List Arg) :
    (args.flatMap (·.value.symbols)).Perm
      (Element.symbols (args.flatMap (·.value.elements))) := by
  rw [Element.symbols_flatMap]
  exact List.Perm.flatMap_left _ fun arg _ => arg.value.symbols_perm

mutual

theorem Node.symbols_perm (node : Node) : node.symbols.Perm (Element.symbols node.elements) := by
  match node with
  | .text _ _ => exact .refl _
  | .output expr _ => exact expr.symbols_perm
  | .branch arms none _ => exact Node.armSymbols_perm arms
  | .branch arms (some otherwise) _ =>
      have both := (Node.armSymbols_perm arms).append (Node.listSymbols_perm otherwise)
      rwa [← Element.symbols_append] at both
  | .loop _ _ iterable body _ =>
      have both := iterable.symbols_perm.append (Node.listSymbols_perm body)
      rwa [← Element.symbols_append] at both
  | .assign _ _ value _ => exact value.symbols_perm
  | .tag _ _ args none _ => exact (Arg.symbols_perm args).cons _
  | .tag _ _ args (some body) _ =>
      have both := (Arg.symbols_perm args).append (Node.listSymbols_perm body)
      rw [← Element.symbols_append] at both
      exact both.cons _

theorem Node.armSymbols_perm (arms : List (Expr × List Node)) :
    (Node.armSymbols arms).Perm (Element.symbols (Node.armElements arms)) := by
  match arms with
  | [] => exact .refl _
  | (condition, body) :: rest =>
      have first := condition.symbols_perm.append (Node.listSymbols_perm body)
      have both := first.append (Node.armSymbols_perm rest)
      rwa [← Element.symbols_append, ← Element.symbols_append] at both

theorem Node.listSymbols_perm (nodes : List Node) :
    (Node.listSymbols nodes).Perm (Element.symbols (Node.listElements nodes)) := by
  match nodes with
  | [] => exact .refl _
  | node :: rest =>
      have both := node.symbols_perm.append (Node.listSymbols_perm rest)
      rwa [← Element.symbols_append] at both

end

/-- The symbols of a template are those that its elements name. -/
theorem Template.symbols_perm (template : Template) :
    (Template.symbols template).Perm (Element.symbols (Template.elements template)) :=
  Node.listSymbols_perm template

end QueryTemplate
