import QueryTemplate.Proofs.Template.Parts
import QueryTemplate.Template.Tree

set_option autoImplicit false

/- Templates written as chunks again: the header of every block, what stands in it, and the headers
that end its bodies. Of those the tree keeps neither the places nor any arguments. -/

namespace QueryTemplate

/-- A header that ends a body, without a place and without arguments. -/
def Stop.chunk : Stop → Chunk
  | elif condition => .header (.elif condition) default
  | otherwise => .header .otherwise default
  | endBranch => .header .endBranch default
  | endLoop => .header .endLoop default
  | endTag name => .header (.tag name default []) default

namespace Chunk

/-- How a chunk ends the body that it stands in, if it does. -/
def stop? (grammars : TagGrammars) : Chunk → Option Stop
  | .header (.elif condition) _ => some (.elif condition)
  | .header .otherwise _ => some .otherwise
  | .header .endBranch _ => some .endBranch
  | .header .endLoop _ => some .endLoop
  | .header (.tag name _ _) _ => if grammars.closesBlock name then some (.endTag name) else none
  | _ => none

/-- Forgets the places and arguments of the headers that end a body. -/
def forget (grammars : TagGrammars) (chunk : Chunk) : Chunk :=
  match chunk.stop? grammars with
  | some stop => stop.chunk
  | none => chunk

variable {grammars : TagGrammars} {chunk other : Chunk} {stop : Stop}

theorem forget_of_none (opens : chunk.stop? grammars = none) : chunk.forget grammars = chunk := by
  simp only [forget, opens]

theorem forget_of_some (stops : chunk.stop? grammars = some stop) :
    chunk.forget grammars = stop.chunk := by
  simp only [forget, stops]

theorem stop?_chunk (stops : chunk.stop? grammars = some stop) :
    stop.chunk.stop? grammars = some stop := by
  unfold stop? at stops
  split at stops
  case h_5 name _ _ _ =>
    split at stops
    next closes =>
      cases stops
      simp only [Stop.chunk, stop?, closes, ↓reduceIte]
    next => cases stops
  all_goals cases stops
  all_goals rfl

theorem stop?_forget (grammars : TagGrammars) (chunk : Chunk) :
    (chunk.forget grammars).stop? grammars = chunk.stop? grammars := by
  cases stops : chunk.stop? grammars with
  | none => rw [forget_of_none stops, stops]
  | some stop => rw [forget_of_some stops, stop?_chunk stops]

/-- Nothing else is forgotten. -/
theorem eq_of_forget (same : chunk.forget grammars = other.forget grammars)
    (opens : other.stop? grammars = none) : chunk = other := by
  have stops := stop?_forget grammars chunk
  rw [same, stop?_forget, opens] at stops
  rwa [forget_of_none stops.symm, forget_of_none opens] at same

theorem stop?_of_forget (same : chunk.forget grammars = stop.chunk.forget grammars)
    (stops : stop.chunk.stop? grammars = some stop) : chunk.stop? grammars = some stop := by
  rw [← stop?_forget, same, stop?_forget, stops]

theorem eq_of_stop?_elif {condition : Expr} (stops : chunk.stop? grammars = some (.elif condition)) :
    ∃ span, chunk = .header (.elif condition) span := by
  unfold stop? at stops
  split at stops
  case h_1 span =>
    cases stops
    exact ⟨span, rfl⟩
  case h_5 =>
    split at stops
    next => cases stops
    next => cases stops
  all_goals cases stops

theorem forget_chunk (stops : chunk.stop? grammars = some stop) :
    stop.chunk.forget grammars = chunk.forget grammars := by
  rw [forget_of_some (stop?_chunk stops), forget_of_some stops]

end Chunk

theorem TagGrammars.closesBlock_endName (grammars : TagGrammars) (name : String) :
    grammars.closesBlock (TagGrammar.endName name) =
      (Table.get? grammars name).any (·.block) := by
  have spelled : (TagGrammar.endName name).toList = 'e' :: 'n' :: 'd' :: name.toList := by
    rw [TagGrammar.endName, String.toList_append]
    rfl
  simp only [closesBlock, spelled, String.ofList_toList]

mutual

/-- The chunks of a node: the header of a block first, the closer last. -/
def Node.chunks : Node → List Chunk
  | .text content span => [.text content span]
  | .output expr span => [.output expr span]
  | .branch arms none span =>
    armsChunks (fun condition => .header (.branch condition) span) arms ++ [Stop.endBranch.chunk]
  | .branch arms (some otherwise) span =>
    armsChunks (fun condition => .header (.branch condition) span) arms ++
      Stop.otherwise.chunk :: listChunks otherwise ++ [Stop.endBranch.chunk]
  | .loop var varSpan iterable body span =>
    .header (.loop var varSpan iterable) span :: listChunks body ++ [Stop.endLoop.chunk]
  | .assign var varSpan value span => [.header (.assign var varSpan value) span]
  | .tag name nameSpan args none span => [.header (.tag name nameSpan args) span]
  | .tag name nameSpan args (some body) span =>
    .header (.tag name nameSpan args) span :: listChunks body ++
      [(Stop.endTag (TagGrammar.endName name)).chunk]

/-- The chunks of arms, each with a header before its body. -/
def Node.armsChunks (header : Expr → Chunk) : List (Expr × List Node) → List Chunk
  | [] => []
  | (condition, body) :: rest =>
    header condition :: listChunks body ++
      armsChunks (fun condition => (Stop.elif condition).chunk) rest

def Node.listChunks : List Node → List Chunk
  | [] => []
  | node :: rest => node.chunks ++ listChunks rest

end

/-- The chunks of the body that is taken when no arm is. -/
def Node.otherwiseChunks : Option (List Node) → List Chunk
  | none => []
  | some otherwise => Stop.otherwise.chunk :: listChunks otherwise

theorem Node.chunks_branch (arms : List (Expr × List Node)) (otherwise : Option (List Node))
    (span : Span) :
    (Node.branch arms otherwise span).chunks =
      armsChunks (fun condition => .header (.branch condition) span) arms ++
        otherwiseChunks otherwise ++ [Stop.endBranch.chunk] := by
  cases otherwise with
  | none => rw [chunks, otherwiseChunks, List.append_nil]
  | some nodes => rw [chunks, otherwiseChunks]

def Template.chunks (template : Template) : List Chunk := Node.listChunks template

/-- The expressions of a header with all of their parts. -/
def Header.elements : Header → List Element
  | .branch condition => condition.elements
  | .elif condition => condition.elements
  | .loop _ _ iterable => iterable.elements
  | .assign _ _ value => value.elements
  | .tag _ _ args => args.flatMap (·.value.elements)
  | _ => []

def Chunk.elements : Chunk → List Element
  | .text _ _ => []
  | .output expr _ => expr.elements
  | .header content _ => content.elements

/-- The expressions of a header, from left to right. -/
def Header.exprs : Header → List Expr
  | .branch condition => [condition]
  | .elif condition => [condition]
  | .loop _ _ iterable => [iterable]
  | .assign _ _ value => [value]
  | .tag _ _ args => args.map (·.value)
  | _ => []

def Chunk.exprs : Chunk → List Expr
  | .text _ _ => []
  | .output expr _ => [expr]
  | .header content _ => content.exprs

theorem Header.elements_eq_flatMap (header : Header) :
    header.elements = header.exprs.flatMap Expr.elements := by
  cases header with
  | tag => rw [elements, exprs, List.flatMap_map]
  | _ => simp only [elements, exprs, List.flatMap_cons, List.flatMap_nil, List.append_nil]

theorem Chunk.elements_eq_flatMap (chunk : Chunk) :
    chunk.elements = chunk.exprs.flatMap Expr.elements := by
  cases chunk with
  | text => rfl
  | output => rw [elements, exprs, List.flatMap_cons, List.flatMap_nil, List.append_nil]
  | header content _ => exact content.elements_eq_flatMap

/-- All elements of a chunk are expressions. -/
theorem Chunk.node_notMem_elements (chunk : Chunk) (node : Node) :
    .node node ∉ chunk.elements := by
  rw [elements_eq_flatMap, List.mem_flatMap]
  rintro ⟨expr, -, within⟩
  exact expr.node_notMem_elements node within

/-- The tag of a header, and the filters in its expressions. -/
def Header.symbols : Header → List Symbol
  | .branch condition => condition.symbols
  | .elif condition => condition.symbols
  | .loop _ _ iterable => iterable.symbols
  | .assign _ _ value => value.symbols
  | .tag name nameSpan args => ⟨.tag, name, nameSpan⟩ :: args.flatMap (·.value.symbols)
  | _ => []

def Chunk.symbols : Chunk → List Symbol
  | .text _ _ => []
  | .output expr _ => expr.symbols
  | .header content _ => content.symbols

def Chunk.listElements (chunks : List Chunk) : List Element := chunks.flatMap Chunk.elements

/-- The expressions among these elements are among others. -/
def ExprsAmong (elements others : List Element) : Prop :=
  ∀ expr, .expr expr ∈ elements → .expr expr ∈ others

namespace ExprsAmong

variable {first second elements others more : List Element}

theorem of_subset (contained : elements ⊆ others) : ExprsAmong elements others :=
  fun _ within => contained within

theorem node {node : Node} (rest : ExprsAmong elements others) :
    ExprsAmong (.node node :: elements) others := by
  intro expr within
  exact rest expr ((List.mem_cons.mp within).resolve_left fun same => nomatch same)

theorem append (front : ExprsAmong first others) (back : ExprsAmong second others) :
    ExprsAmong (first ++ second) others := by
  intro expr within
  exact (List.mem_append.mp within).elim (front expr) (back expr)

theorem trans (among : ExprsAmong elements others) (contained : others ⊆ more) :
    ExprsAmong elements more := fun expr within => contained (among expr within)

end ExprsAmong

mutual

/-- How many blocks stand one inside the other. -/
def Node.depth : Node → Nat
  | .branch arms none _ => armsDepth arms + 1
  | .branch arms (some otherwise) _ => max (armsDepth arms) (listDepth otherwise) + 1
  | .loop _ _ _ body _ => listDepth body + 1
  | .tag _ _ _ (some body) _ => listDepth body + 1
  | _ => 0

def Node.armsDepth : List (Expr × List Node) → Nat
  | [] => 0
  | (_, body) :: rest => max (listDepth body) (armsDepth rest)

def Node.listDepth : List Node → Nat
  | [] => 0
  | node :: rest => max node.depth (listDepth rest)

end

/-- What stands in the body that is taken when no arm is. -/
def Node.otherwiseElements : Option (List Node) → List Element
  | none => []
  | some otherwise => listElements otherwise

def Node.otherwiseSymbols : Option (List Node) → List Symbol
  | none => []
  | some otherwise => listSymbols otherwise

def Node.otherwiseDepth : Option (List Node) → Nat
  | none => 0
  | some otherwise => listDepth otherwise

section

variable (arms : List (Expr × List Node)) (otherwise : Option (List Node)) (span : Span)

theorem Node.elements_branch :
    (Node.branch arms otherwise span).elements =
      .node (.branch arms otherwise span) :: (armElements arms ++ otherwiseElements otherwise) := by
  cases otherwise with
  | none => rw [elements, otherwiseElements, List.append_nil]
  | some _ => rw [elements, otherwiseElements, List.cons_append]

theorem Node.symbols_branch :
    (Node.branch arms otherwise span).symbols =
      armSymbols arms ++ otherwiseSymbols otherwise := by
  cases otherwise with
  | none => rw [symbols, otherwiseSymbols, List.append_nil]
  | some _ => rw [symbols, otherwiseSymbols]

theorem Node.depth_branch :
    (Node.branch arms otherwise span).depth =
      max (armsDepth arms) (otherwiseDepth otherwise) + 1 := by
  cases otherwise with
  | none => rw [depth, otherwiseDepth, Nat.max_zero]
  | some _ => rw [depth, otherwiseDepth]

end

/-- Every tag is registered under its own name. -/
def TagGrammars.Named (grammars : TagGrammars) : Prop :=
  ∀ name grammar, Table.get? grammars name = some grammar → grammar.name = name

/-- An `if` block has an arm. A tag is registered, has a body just when it is a block tag, and is not
named like the closer of a block tag. -/
def Node.Registered (grammars : TagGrammars) : Node → Prop
  | .branch arms _ _ => arms ≠ []
  | .tag name _ _ body _ =>
    grammars.closesBlock name = false ∧
      ∃ grammar, Table.get? grammars name = some grammar ∧ grammar.block = body.isSome
  | _ => True

/-- All nodes among elements are registered. -/
def AllRegistered (grammars : TagGrammars) (elements : List Element) : Prop :=
  ∀ node, .node node ∈ elements → node.Registered grammars

namespace AllRegistered

variable {grammars : TagGrammars}

theorem nil : AllRegistered grammars [] := fun _ within => nomatch within

theorem append {first second : List Element} :
    AllRegistered grammars (first ++ second) ↔
      AllRegistered grammars first ∧ AllRegistered grammars second := by
  constructor
  · intro all
    exact ⟨fun node within => all node (List.mem_append_left _ within),
      fun node within => all node (List.mem_append_right _ within)⟩
  · rintro ⟨front, back⟩ node within
    rcases List.mem_append.mp within with within | within
    · exact front node within
    · exact back node within

theorem cons {node : Node} {elements : List Element} :
    AllRegistered grammars (.node node :: elements) ↔
      node.Registered grammars ∧ AllRegistered grammars elements := by
  constructor
  · intro all
    exact ⟨all node List.mem_cons_self, fun other within => all other (List.mem_cons_of_mem _ within)⟩
  · rintro ⟨head, tail⟩ other within
    rcases List.mem_cons.mp within with same | within
    · cases same
      exact head
    · exact tail other within

end AllRegistered

/-- The parts of expressions are expressions. -/
theorem Expr.allRegistered (grammars : TagGrammars) (expr : Expr) :
    AllRegistered grammars expr.elements :=
  fun node within => absurd within (expr.node_notMem_elements node)

theorem Arg.allRegistered (grammars : TagGrammars) (args : List Arg) :
    AllRegistered grammars (args.flatMap (·.value.elements)) := by
  intro node within
  obtain ⟨arg, _, inner⟩ := List.mem_flatMap.mp within
  exact arg.value.allRegistered grammars node inner

end QueryTemplate
