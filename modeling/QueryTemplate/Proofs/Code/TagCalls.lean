import Mathlib.Data.List.Nodup
import QueryTemplate.Proofs.Code.Labels
import QueryTemplate.Proofs.Template.Parts
import QueryTemplate.Proofs.Template.Revision

set_option autoImplicit false

/- The tags of a template and the instructions that call them. Every tag has one such instruction in
the program, and in front of it the literals among its arguments are known to be on the stack. -/

namespace QueryTemplate

/-- A tag of a template and the address of the instruction that calls it. -/
structure TagCall where
  name : String
  args : List Arg
  hasBody : Bool
  address : Nat

namespace TagCall

def instr (call : TagCall) : Instr := Arg.call call.name call.args call.hasBody

def revise (r : Revision) (call : TagCall) : TagCall :=
  { call with args := call.args.map (·.revise r) }

theorem instr_revise (r : Revision) (call : TagCall) :
    (call.revise r).instr = call.instr := Arg.call_revise r _ _ _

end TagCall

mutual

/-- The tags of a node in document order, if its code stands at a base. -/
def Node.tagCalls (base : Nat) : Node → List TagCall
  | .text _ _ => []
  | .output _ _ => []
  | .branch arms none _ => Node.armsTagCalls base arms
  | .branch arms (some otherwise) _ =>
    Node.armsTagCalls base arms ++ Node.listTagCalls (base + Node.armsSize arms) otherwise
  | .loop _ _ iterable body _ => Node.listTagCalls (base + (iterable.code 0).length + 2) body
  | .assign _ _ _ _ => []
  | .tag name _ args none _ =>
    [⟨name, args, false, base + (Expr.listCode 0 (Arg.pushed args)).length⟩]
  | .tag name _ args (some body) _ =>
    ⟨name, args, true,
        base + 1 + Node.listSize body + (Expr.listCode 0 (Arg.pushed args)).length⟩ ::
      Node.listTagCalls (base + 1) body

def Node.armsTagCalls (base : Nat) : List (Expr × List Node) → List TagCall
  | [] => []
  | (condition, body) :: rest =>
    let first := base + (condition.code 0).length + 1
    Node.listTagCalls first body ++ Node.armsTagCalls (first + Node.listSize body + 1) rest

def Node.listTagCalls (base : Nat) : List Node → List TagCall
  | [] => []
  | node :: rest => node.tagCalls base ++ Node.listTagCalls (base + node.size) rest

end

/-- The tags of a template in document order, each with the address at which its program calls it. -/
def Template.tagCalls (template : Template) : List TagCall := Node.listTagCalls 0 template

/-- The name and the arguments of a tag. -/
def Element.called? : Element → Option (String × List Arg)
  | .node (.tag name _ args _ _) => some (name, args)
  | _ => none

theorem Expr.called_elements (expr : Expr) : expr.elements.filterMap Element.called? = [] := by
  rw [List.filterMap_eq_nil_iff]
  intro element within
  cases element with
  | node node => exact absurd within (expr.node_notMem_elements node)
  | expr => rfl

theorem Arg.called_elements (args : List Arg) :
    (args.flatMap (·.value.elements)).filterMap Element.called? = [] := by
  induction args with
  | nil => rfl
  | cons arg rest ih => rw [List.flatMap_cons, List.filterMap_append, Expr.called_elements, ih]; rfl

mutual

theorem Node.called_tagCalls (node : Node) (base : Nat) :
    (node.tagCalls base).map (fun call => (call.name, call.args)) =
      node.elements.filterMap Element.called? := by
  match node with
  | .text _ _ => rfl
  | .output expr _ => exact expr.called_elements.symm
  | .branch arms none _ => exact Node.arms_called_tagCalls arms base
  | .branch arms (some otherwise) _ =>
      rw [tagCalls, List.map_append, Node.arms_called_tagCalls arms,
        Node.list_called_tagCalls otherwise, elements, List.cons_append, List.filterMap_cons_none rfl,
        List.filterMap_append]
  | .loop _ _ iterable body _ =>
      rw [tagCalls, Node.list_called_tagCalls body, elements, List.cons_append,
        List.filterMap_cons_none rfl, List.filterMap_append, iterable.called_elements,
        List.nil_append]
  | .assign _ _ value _ => exact value.called_elements.symm
  | .tag name _ args none _ =>
      rw [elements, List.filterMap_cons, Arg.called_elements]
      rfl
  | .tag name _ args (some body) _ =>
      rw [tagCalls, List.map_cons, Node.list_called_tagCalls body, elements, List.cons_append,
        List.filterMap_cons, List.filterMap_append, Arg.called_elements, List.nil_append]
      rfl

theorem Node.arms_called_tagCalls (arms : List (Expr × List Node)) (base : Nat) :
    (Node.armsTagCalls base arms).map (fun call => (call.name, call.args)) =
      (Node.armElements arms).filterMap Element.called? := by
  match arms with
  | [] => rfl
  | (condition, body) :: rest =>
      rw [armsTagCalls, List.map_append, Node.list_called_tagCalls body,
        Node.arms_called_tagCalls rest, armElements, List.filterMap_append, List.filterMap_append,
        condition.called_elements, List.nil_append]

theorem Node.list_called_tagCalls (nodes : List Node) (base : Nat) :
    (Node.listTagCalls base nodes).map (fun call => (call.name, call.args)) =
      (Node.listElements nodes).filterMap Element.called? := by
  match nodes with
  | [] => rfl
  | node :: rest =>
      rw [listTagCalls, List.map_append, Node.called_tagCalls node, Node.list_called_tagCalls rest,
        listElements, List.filterMap_append]

end

/-- The calls are those of the tags of the tree, in the order of the tree. -/
theorem Template.called_tagCalls (template : Template) :
    template.tagCalls.map (fun call => (call.name, call.args)) =
      template.elements.filterMap Element.called? :=
  Node.list_called_tagCalls template 0

section

variable (r : Revision)

mutual

theorem Node.tagCalls_revise (node : Node) (base : Nat) :
    (node.revise r).tagCalls base = (node.tagCalls base).map (·.revise r) := by
  match node with
  | .text _ _ => rfl
  | .output _ _ => rfl
  | .branch arms none _ => exact Node.armsTagCalls_revise arms base
  | .branch arms (some otherwise) _ =>
      simp only [revise, tagCalls, List.map_append, Node.armsTagCalls_revise arms,
        Node.armsSize_revise, Node.listTagCalls_revise otherwise]
  | .loop _ _ iterable body _ =>
      simp only [revise, tagCalls, Expr.length_code_revise, Node.listTagCalls_revise body]
  | .assign _ _ _ _ => rfl
  | .tag name _ args none _ =>
      simp only [revise, tagCalls, Arg.pushed_revise, Expr.length_listCode_revise, List.map_cons,
        List.map_nil, TagCall.revise]
  | .tag name _ args (some body) _ =>
      simp only [revise, tagCalls, Arg.pushed_revise, Expr.length_listCode_revise, List.map_cons,
        Node.listSize_revise, Node.listTagCalls_revise body, TagCall.revise]

theorem Node.armsTagCalls_revise (arms : List (Expr × List Node)) (base : Nat) :
    Node.armsTagCalls base (Node.armsRevise r arms) =
      (Node.armsTagCalls base arms).map (·.revise r) := by
  match arms with
  | [] => rfl
  | (condition, body) :: rest =>
      simp only [armsRevise, armsTagCalls, Expr.length_code_revise, Node.listSize_revise,
        Node.listTagCalls_revise body, Node.armsTagCalls_revise rest, List.map_append]

theorem Node.listTagCalls_revise (nodes : List Node) (base : Nat) :
    Node.listTagCalls base (Node.listRevise r nodes) =
      (Node.listTagCalls base nodes).map (·.revise r) := by
  match nodes with
  | [] => rfl
  | node :: rest =>
      simp only [listRevise, listTagCalls, Node.tagCalls_revise node, Node.size_revise,
        Node.listTagCalls_revise rest, List.map_append]

end

theorem Template.tagCalls_revise (template : Template) :
    tagCalls (template.revise r) = template.tagCalls.map (·.revise r) :=
  Node.listTagCalls_revise r template 0

end

def Instr.callsTag : Instr → Bool
  | callTag .. => true
  | _ => false

/-- The instructions of code at a base that call tags, with their addresses. -/
def callsAt (base : Nat) (code : List Instr) : List (Instr × Nat) :=
  (code.zipIdx base).filter fun placed => placed.1.callsTag

theorem callsAt_append (base : Nat) (first second : List Instr) :
    callsAt base (first ++ second) =
      callsAt base first ++ callsAt (base + first.length) second := by
  rw [callsAt, List.zipIdx_append, List.filter_append]
  rfl

theorem callsAt_cons (base : Nat) (instr : Instr) (rest : List Instr) :
    callsAt base (instr :: rest) =
      if instr.callsTag then (instr, base) :: callsAt (base + 1) rest
      else callsAt (base + 1) rest := by
  rw [callsAt, List.zipIdx_cons, List.filter_cons]
  rfl

@[simp] theorem callsAt_nil (base : Nat) : callsAt base [] = [] := rfl

mutual

theorem Expr.callsAt_code (expr : Expr) (base place : Nat) : callsAt place (expr.code base) = [] := by
  match expr with
  | .literal _ _ => rfl
  | .var _ _ => rfl
  | .attr target _ _ =>
      simp [code, callsAt_append, callsAt_cons, Instr.callsTag, target.callsAt_code]
  | .filter _ target _ _ args _ =>
      simp [code, callsAt_append, callsAt_cons, Instr.callsTag, target.callsAt_code,
        Expr.callsAt_listCode args]
  | .negate operand _ =>
      simp [code, callsAt_append, callsAt_cons, Instr.callsTag, operand.callsAt_code]
  | .binary op left right _ =>
      cases op <;>
        simp [code, callsAt_append, callsAt_cons, Instr.callsTag, left.callsAt_code,
          right.callsAt_code]

theorem Expr.callsAt_listCode (exprs : List Expr) (base place : Nat) :
    callsAt place (Expr.listCode base exprs) = [] := by
  match exprs with
  | [] => rfl
  | expr :: rest =>
      simp [listCode, callsAt_append, expr.callsAt_code, Expr.callsAt_listCode rest]

end

/-- What a tag's call contributes to the calls of code. -/
def TagCall.placed (call : TagCall) : Instr × Nat := (call.instr, call.address)

mutual

theorem Node.tagCalls_perm (node : Node) (base : Nat) :
    ((node.tagCalls base).map TagCall.placed).Perm (callsAt base (node.code base)) := by
  match node with
  | .text _ _ =>
      rw [code]
      split <;> rfl
  | .output expr _ => simp [code, tagCalls, callsAt_append, callsAt_cons, Instr.callsTag,
      expr.callsAt_code]
  | .branch arms none _ => exact Node.armsTagCalls_perm arms base _
  | .branch arms (some otherwise) _ =>
      rw [code, tagCalls, List.map_append, callsAt_append, Node.length_armsCode]
      exact (Node.armsTagCalls_perm arms base _).append (Node.listTagCalls_perm otherwise _)
  | .loop _ _ iterable body _ =>
      have inner := Node.listTagCalls_perm body (base + (iterable.code 0).length + 2)
      simpa [code, tagCalls, callsAt_append, callsAt_cons, Instr.callsTag, iterable.callsAt_code,
        iterable.length_code base] using inner
  | .assign _ _ value _ => simp [code, tagCalls, callsAt_append, callsAt_cons, Instr.callsTag,
      value.callsAt_code]
  | .tag name _ args none _ =>
      simp [code, tagCalls, callsAt_append, callsAt_cons, Expr.callsAt_listCode,
        Expr.length_listCode _ base, TagCall.placed, TagCall.instr, Arg.call, Instr.callsTag]
  | .tag name nameSpan args (some body) span =>
      have inner := Node.listTagCalls_perm body (base + 1)
      have whole : callsAt base (code base (.tag name nameSpan args (some body) span)) =
          callsAt (base + 1) (Node.listCode (base + 1) body) ++
            [TagCall.placed ⟨name, args, true,
              base + 1 + Node.listSize body + (Expr.listCode 0 (Arg.pushed args)).length⟩] := by
        simp [code, callsAt_append, callsAt_cons, Expr.callsAt_listCode, Node.length_listCode,
          Expr.length_listCode _ (base + _), TagCall.placed, TagCall.instr, Arg.call,
          Instr.callsTag, Nat.add_assoc, Nat.add_comm 1]
      rw [whole, tagCalls, List.map_cons]
      exact (inner.cons _).trans (List.perm_append_singleton _ _).symm

theorem Node.armsTagCalls_perm (arms : List (Expr × List Node)) (base stop : Nat) :
    ((Node.armsTagCalls base arms).map TagCall.placed).Perm
      (callsAt base (Node.armsCode base stop arms)) := by
  match arms with
  | [] => rfl
  | (condition, body) :: rest =>
      have first := Node.listTagCalls_perm body (base + (condition.code 0).length + 1)
      have others := Node.armsTagCalls_perm rest
        (base + (condition.code 0).length + 1 + Node.listSize body + 1) stop
      simpa [armsCode, armsTagCalls, callsAt_append, callsAt_cons, Instr.callsTag,
        condition.callsAt_code, condition.length_code base, Node.length_listCode, Nat.add_assoc]
        using first.append others

theorem Node.listTagCalls_perm (nodes : List Node) (base : Nat) :
    ((Node.listTagCalls base nodes).map TagCall.placed).Perm
      (callsAt base (Node.listCode base nodes)) := by
  match nodes with
  | [] => rfl
  | node :: rest =>
      rw [listTagCalls, listCode, List.map_append, callsAt_append, node.length_code]
      exact (Node.tagCalls_perm node base).append (Node.listTagCalls_perm rest _)

end

theorem Template.tagCalls_perm (template : Template) :
    (template.tagCalls.map TagCall.placed).Perm (callsAt 0 (program template)) := by
  rw [program, callsAt_append, callsAt_cons, callsAt_nil]
  exact (Node.listTagCalls_perm template 0).trans (.of_eq (List.append_nil _).symm)

/-- The instructions that call tags are those of the tags of the template. -/
theorem Template.fetch_tagCall {template : Template} {address : Nat} {instr : Instr} :
    (program template)[address]? = some instr ∧ instr.callsTag ↔
      ∃ call ∈ template.tagCalls, call.address = address ∧ call.instr = instr := by
  have listed : (instr, address) ∈ callsAt 0 (program template) ↔
      (program template)[address]? = some instr ∧ instr.callsTag := by
    rw [callsAt, List.mem_filter, List.mem_zipIdx_iff_getElem?]
  rw [← listed, ← template.tagCalls_perm.mem_iff, List.mem_map]
  refine exists_congr fun call => and_congr_right fun _ => ?_
  rw [TagCall.placed, Prod.mk.injEq]
  exact and_comm

section

variable {labels : Nat → Sketch}

mutual

theorem Node.label_tagCall (node : Node) {base : Nat} (labelled : Labelled labels base node.sketches) :
    ∀ call ∈ node.tagCalls base, labels call.address = Expr.known [] (Arg.pushed call.args) := by
  match node with
  | .text _ _ => exact nofun
  | .output _ _ => exact nofun
  | .branch arms none _ => exact Node.arms_label_tagCall arms labelled
  | .branch arms (some otherwise) _ =>
      rw [sketches, Labelled, EachAt.append, Node.length_armsSketches] at labelled
      obtain ⟨first, last⟩ := labelled
      rw [tagCalls, List.forall_mem_append]
      exact ⟨Node.arms_label_tagCall arms first, Node.list_label_tagCall otherwise last⟩
  | .loop _ _ iterable body _ =>
      simp only [sketches, EachAt.append, EachAt.cons, List.append_assoc, List.cons_append,
        Expr.length_sketches] at labelled
      obtain ⟨-, -, -, inner, -⟩ := labelled
      exact Node.list_label_tagCall body inner
  | .assign _ _ _ _ => exact nofun
  | .tag name _ args none _ =>
      rw [sketches, Labelled, EachAt.append, Expr.length_listSketches] at labelled
      exact List.forall_mem_singleton.mpr labelled.2.1
  | .tag name _ args (some body) _ =>
      simp only [sketches, EachAt.append, EachAt.cons, List.cons_append, List.length_append,
        Node.length_listSketches, Expr.length_listSketches, ← Nat.add_assoc] at labelled
      obtain ⟨-, ⟨inner, -⟩, last, -⟩ := labelled
      exact List.forall_mem_cons.mpr ⟨last, Node.list_label_tagCall body inner⟩

theorem Node.arms_label_tagCall (arms : List (Expr × List Node)) {base : Nat}
    (labelled : Labelled labels base (Node.armsSketches arms)) :
    ∀ call ∈ Node.armsTagCalls base arms,
      labels call.address = Expr.known [] (Arg.pushed call.args) := by
  match arms with
  | [] => exact nofun
  | (condition, body) :: rest =>
      simp only [armsSketches, EachAt.append, EachAt.cons, List.append_assoc, List.cons_append,
        Expr.length_sketches, Node.length_listSketches] at labelled
      obtain ⟨-, -, inner, -, others⟩ := labelled
      rw [armsTagCalls, List.forall_mem_append]
      exact ⟨Node.list_label_tagCall body inner, Node.arms_label_tagCall rest others⟩

theorem Node.list_label_tagCall (nodes : List Node) {base : Nat}
    (labelled : Labelled labels base (Node.listSketches nodes)) :
    ∀ call ∈ Node.listTagCalls base nodes,
      labels call.address = Expr.known [] (Arg.pushed call.args) := by
  match nodes with
  | [] => exact nofun
  | node :: rest =>
      rw [listSketches, Labelled, EachAt.append, Node.length_sketches] at labelled
      obtain ⟨first, others⟩ := labelled
      rw [listTagCalls, List.forall_mem_append]
      exact ⟨Node.label_tagCall node first, Node.list_label_tagCall rest others⟩

end

end

/-- Whenever a run stands in front of the call of a tag, the literals among the arguments of the tag
are in their places on the stack. -/
theorem Template.fits_tagCall {setting : Setting} {template : Template}
    (compiled : setting.program = Template.program template) {call : TagCall}
    (listed : call ∈ template.tagCalls) {steps : Nat} {machine : Machine}
    (reached : Machine.start.advance setting steps = .ok machine)
    (stands : machine.pc = call.address) :
    (Expr.known [] (Arg.pushed call.args)).Fits machine.stack := by
  have fits := fits_advance compiled reached
  rwa [stands, Node.list_label_tagCall template template.labelled_sketch call listed] at fits

end QueryTemplate
