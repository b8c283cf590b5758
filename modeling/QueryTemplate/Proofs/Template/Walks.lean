import QueryTemplate.Proofs.Template.Flattening

set_option autoImplicit false

/- The elements and symbols of a tree as they are met in its chunks. Whatever is met comes from a
chunk, and in the order of the chunks. -/

namespace QueryTemplate

/-- A node, and the chunk that it begins with. -/
inductive Node.OpenedBy : Node → Chunk → Prop
  | text (content : String) (span : Span) : OpenedBy (.text content span) (.text content span)
  | output (expr : Expr) (span : Span) : OpenedBy (.output expr span) (.output expr span)
  | branch (condition : Expr) (body : List Node) (arms : List (Expr × List Node))
      (otherwise : Option (List Node)) (span : Span) :
      OpenedBy (.branch ((condition, body) :: arms) otherwise span)
        (.header (.branch condition) span)
  | loop (var : String) (varSpan : Span) (iterable : Expr) (body : List Node) (span : Span) :
      OpenedBy (.loop var varSpan iterable body span) (.header (.loop var varSpan iterable) span)
  | assign (var : String) (varSpan : Span) (value : Expr) (span : Span) :
      OpenedBy (.assign var varSpan value span) (.header (.assign var varSpan value) span)
  | tag (name : String) (nameSpan : Span) (args : List Arg) (body : Option (List Node))
      (span : Span) :
      OpenedBy (.tag name nameSpan args body span) (.header (.tag name nameSpan args) span)

theorem Node.OpenedBy.span_eq {node : Node} {chunk : Chunk} (opened : node.OpenedBy chunk) :
    node.span = chunk.span := by
  cases opened <;> rfl

/-- Elements and symbols in the order in which they are met in chunks. Of a header that ends a body
only a condition is met. -/
inductive Walk : List Element → List Symbol → List Chunk → Prop
  | nil : Walk [] [] []
  | enter {node : Node} {chunk : Chunk} {elements : List Element} {symbols : List Symbol}
      {chunks : List Chunk} (opened : node.OpenedBy chunk) (rest : Walk elements symbols chunks) :
      Walk (.node node :: chunk.elements ++ elements) (chunk.symbols ++ symbols) (chunk :: chunks)
  | turn (condition : Expr) (span : Span) {elements : List Element} {symbols : List Symbol}
      {chunks : List Chunk} (rest : Walk elements symbols chunks) :
      Walk (condition.elements ++ elements) (condition.symbols ++ symbols)
        (.header (.elif condition) span :: chunks)
  | pass (chunk : Chunk) {elements : List Element} {symbols : List Symbol} {chunks : List Chunk}
      (rest : Walk elements symbols chunks) : Walk elements symbols (chunk :: chunks)

/-- The places of a chunk and of the expressions in it with all of their parts. -/
def Chunk.spans (chunk : Chunk) : List Span := chunk.span :: chunk.elements.map (·.span)

namespace Walk

variable {elements others : List Element} {symbols more : List Symbol} {chunks later : List Chunk}

/-- What opens a node, alone. -/
theorem one {node : Node} {chunk : Chunk} (opened : node.OpenedBy chunk) :
    Walk (.node node :: chunk.elements) chunk.symbols [chunk] := by
  have single := enter opened .nil
  rwa [List.append_nil, List.append_nil] at single

theorem append (first : Walk elements symbols chunks) (second : Walk others more later) :
    Walk (elements ++ others) (symbols ++ more) (chunks ++ later) := by
  induction first with
  | nil => exact second
  | enter opened _ ih =>
      rw [List.append_assoc, List.append_assoc]
      exact .enter opened ih
  | turn condition span _ ih =>
      rw [List.append_assoc, List.append_assoc]
      exact .turn condition span ih
  | pass chunk _ ih => exact .pass chunk ih

/-- A closer behind everything else. -/
theorem close (walk : Walk elements symbols chunks) (closer : Chunk) :
    Walk elements symbols (chunks ++ [closer]) := by
  have whole := walk.append (.pass closer .nil)
  rwa [List.append_nil, List.append_nil] at whole

theorem exprs (walk : Walk elements symbols chunks) :
    ExprsAmong elements (Chunk.listElements chunks) := by
  induction walk with
  | nil => exact .of_subset (List.Subset.refl _)
  | enter _ _ ih =>
      refine .append (.node (.of_subset (List.subset_append_left _ _))) ?_
      exact ih.trans (List.subset_append_right _ _)
  | turn _ _ _ ih =>
      refine .append (.of_subset (List.subset_append_left _ _)) ?_
      exact ih.trans (List.subset_append_right _ _)
  | pass _ _ ih => exact ih.trans (List.subset_append_right _ _)

theorem opened (walk : Walk elements symbols chunks) {node : Node}
    (within : .node node ∈ elements) : ∃ chunk ∈ chunks, node.OpenedBy chunk := by
  induction walk with
  | nil => cases within
  | @enter _ chunk _ _ _ opened _ ih =>
      rcases List.mem_append.mp within with within | within
      · rcases List.mem_cons.mp within with same | within
        · cases same
          exact ⟨chunk, List.mem_cons_self, opened⟩
        · exact absurd within (chunk.node_notMem_elements node)
      · obtain ⟨other, listed, opened⟩ := ih within
        exact ⟨other, List.mem_cons_of_mem _ listed, opened⟩
  | turn condition _ _ ih =>
      have later := (List.mem_append.mp within).resolve_left (condition.node_notMem_elements node)
      obtain ⟨other, listed, opened⟩ := ih later
      exact ⟨other, List.mem_cons_of_mem _ listed, opened⟩
  | pass _ _ ih =>
      obtain ⟨other, listed, opened⟩ := ih within
      exact ⟨other, List.mem_cons_of_mem _ listed, opened⟩

theorem symbols_sublist (walk : Walk elements symbols chunks) :
    symbols.Sublist (chunks.flatMap Chunk.symbols) := by
  induction walk with
  | nil => exact .slnil
  | enter _ _ ih => exact (List.Sublist.refl _).append ih
  | turn _ _ _ ih => exact (List.Sublist.refl _).append ih
  | pass _ _ ih => exact ih.trans (List.sublist_append_right _ _)

theorem spans_sublist (walk : Walk elements symbols chunks) :
    (elements.map (·.span)).Sublist (chunks.flatMap Chunk.spans) := by
  induction walk with
  | nil => exact .slnil
  | @enter _ chunk _ _ _ opened _ ih =>
      rw [List.map_append, List.map_cons]
      refine List.Sublist.append ?_ ih
      rw [Element.span, opened.span_eq]
      exact .refl _
  | turn _ _ _ ih =>
      rw [List.map_append]
      exact (List.sublist_cons_self _ _).append ih
  | pass _ _ ih => exact ih.trans (List.sublist_append_right _ _)

end Walk

end QueryTemplate
