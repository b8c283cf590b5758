import QueryTemplate.Proofs.Template.Marking
import QueryTemplate.Proofs.Template.Rebuilding
import QueryTemplate.Proofs.Template.Symbols
import QueryTemplate.Template.Awaiting
import QueryTemplate.Template.Symbol

set_option autoImplicit false

/- What a template asks of its surroundings. Its tree depends on the grammars of the tags that it
names and on nothing else that is registered, and the filters that are marked on those that it
names. -/

namespace QueryTemplate

namespace Chunk

variable {grammars others : TagGrammars} {chunk : Chunk}

def tagName? : Chunk → Option String
  | .header (.tag name _ _) _ => some name
  | _ => none

theorem stop?_congr (same : ∀ name, chunk.tagName? = some name →
    others.closesBlock name = grammars.closesBlock name) :
    chunk.stop? others = chunk.stop? grammars := by
  unfold stop?
  split
  case h_5 name _ _ _ => rw [same name rfl]
  all_goals rfl

theorem forget_congr (same : ∀ name, chunk.tagName? = some name →
    others.closesBlock name = grammars.closesBlock name) :
    chunk.forget others = chunk.forget grammars := by
  rw [forget, stop?_congr same, forget]

theorem tagName?_forget (grammars : TagGrammars) (chunk : Chunk) :
    (chunk.forget grammars).tagName? = chunk.tagName? := by
  cases stops : chunk.stop? grammars with
  | none => rw [forget_of_none stops]
  | some stop =>
      rw [forget_of_some stops]
      unfold stop? at stops
      split at stops
      case h_5 =>
        split at stops <;> cases stops
        rfl
      all_goals cases stops
      all_goals rfl

end Chunk

/-- The tags that head chunks are among the symbols, or close one that is. -/
def Headed (symbols : List Symbol) (chunks : List Chunk) : Prop :=
  ∀ chunk ∈ chunks, ∀ name, chunk.tagName? = some name →
    ∃ symbol ∈ symbols, symbol.kind = .tag ∧
      (name = symbol.name ∨ name = TagGrammar.endName symbol.name)

namespace Headed

variable {symbols more : List Symbol} {chunks others : List Chunk} {chunk : Chunk}

theorem nil : Headed symbols [] := fun _ within => nomatch within

theorem append (front : Headed symbols chunks) (back : Headed symbols others) :
    Headed symbols (chunks ++ others) := by
  intro chunk within
  exact (List.mem_append.mp within).elim (front chunk) (back chunk)

theorem cons_plain (plain : chunk.tagName? = none) (rest : Headed symbols chunks) :
    Headed symbols (chunk :: chunks) := by
  intro other within name named
  rcases List.mem_cons.mp within with rfl | within
  · rw [plain] at named
    cases named
  · exact rest other within name named

theorem single (plain : chunk.tagName? = none) : Headed symbols [chunk] := cons_plain plain nil

theorem mono (headed : Headed symbols chunks) (contained : symbols ⊆ more) :
    Headed more chunks := by
  intro chunk within name named
  obtain ⟨symbol, listed, tag⟩ := headed chunk within name named
  exact ⟨symbol, contained listed, tag⟩

theorem join (front : Headed symbols chunks) (back : Headed more others) :
    Headed (symbols ++ more) (chunks ++ others) :=
  (front.mono (List.subset_append_left _ _)).append (back.mono (List.subset_append_right _ _))

theorem cons_tag {name : String} {nameSpan : Span} (args : List Arg) (span : Span)
    (rest : Headed symbols chunks) (listed : ⟨.tag, name, nameSpan⟩ ∈ symbols) :
    Headed symbols (.header (.tag name nameSpan args) span :: chunks) := by
  intro chunk within other named
  rcases List.mem_cons.mp within with rfl | within
  · cases named
    exact ⟨_, listed, rfl, Or.inl rfl⟩
  · exact rest chunk within other named

theorem closer {name : String} {nameSpan : Span} (listed : ⟨.tag, name, nameSpan⟩ ∈ symbols) :
    Headed symbols [(Stop.endTag (TagGrammar.endName name)).chunk] := by
  intro chunk within other named
  rw [List.mem_singleton.mp within] at named
  cases named
  exact ⟨_, listed, rfl, Or.inr rfl⟩

/-- Forgetting keeps the names of tags. -/
theorem of_forget {grammars : TagGrammars}
    (flat : chunks.map (Chunk.forget grammars) = others.map (Chunk.forget grammars))
    (headed : Headed symbols others) : Headed symbols chunks := by
  intro chunk within name named
  have forgotten : chunk.forget grammars ∈ chunks.map (Chunk.forget grammars) :=
    List.mem_map_of_mem within
  rw [flat] at forgotten
  obtain ⟨other, within', same⟩ := List.mem_map.mp forgotten
  apply headed other within' name
  rw [← Chunk.tagName?_forget grammars, same, Chunk.tagName?_forget, named]

end Headed

mutual

theorem Node.headed_chunks (node : Node) : Headed node.symbols node.chunks := by
  match node with
  | .text _ _ => exact .single rfl
  | .output _ _ => exact .single rfl
  | .assign _ _ _ _ => exact .single rfl
  | .branch arms none _ =>
      exact (Node.headed_armsChunks (fun _ => rfl) arms).append (.single rfl)
  | .branch arms (some otherwise) _ =>
      have last : Headed (listSymbols otherwise) (Stop.otherwise.chunk :: listChunks otherwise) :=
        (Node.headed_listChunks otherwise).cons_plain rfl
      exact ((Node.headed_armsChunks (fun _ => rfl) arms).join last).append (.single rfl)
  | .loop _ _ iterable body _ =>
      have inner := (Node.headed_listChunks body).mono (List.subset_append_right iterable.symbols _)
      exact (inner.cons_plain rfl).append (.single rfl)
  | .tag _ _ args none span => exact Headed.nil.cons_tag args span List.mem_cons_self
  | .tag name nameSpan args (some body) span =>
      have inner := (Node.headed_listChunks body).mono (List.subset_append_right
        (⟨.tag, name, nameSpan⟩ :: args.flatMap (·.value.symbols)) _)
      exact (inner.cons_tag args span List.mem_cons_self).append (.closer List.mem_cons_self)

theorem Node.headed_armsChunks {header : Expr → Chunk}
    (plain : ∀ condition, (header condition).tagName? = none) (arms : List (Expr × List Node)) :
    Headed (Node.armSymbols arms) (Node.armsChunks header arms) := by
  match arms with
  | [] => exact .nil
  | (condition, body) :: rest =>
      have inner := (Node.headed_listChunks body).mono (List.subset_append_right condition.symbols _)
      exact (inner.cons_plain (plain condition)).join
        (Node.headed_armsChunks (fun _ => rfl) rest)

theorem Node.headed_listChunks (nodes : List Node) :
    Headed (Node.listSymbols nodes) (Node.listChunks nodes) := by
  match nodes with
  | [] => exact .nil
  | node :: rest => exact node.headed_chunks.join (Node.headed_listChunks rest)

end

/-- Two sets of grammars that do not differ on the tags among symbols. -/
structure TagGrammars.Agree (grammars others : TagGrammars) (symbols : List Symbol) : Prop where
  found : ∀ symbol ∈ symbols, symbol.kind = .tag →
    Table.get? others symbol.name = Table.get? grammars symbol.name
  closes : ∀ symbol ∈ symbols, symbol.kind = .tag →
    others.closesBlock symbol.name = grammars.closesBlock symbol.name

section Agree

variable {grammars others : TagGrammars} {symbols more : List Symbol}

theorem TagGrammars.Agree.mono (agree : Agree grammars others symbols) (contained : more ⊆ symbols) :
    Agree grammars others more where
  found symbol within := agree.found symbol (contained within)
  closes symbol within := agree.closes symbol (contained within)

theorem TagGrammars.Agree.registered_tag (agree : Agree grammars others symbols) {name : String}
    {nameSpan : Span} (listed : ⟨.tag, name, nameSpan⟩ ∈ symbols) {args : List Arg}
    {body : Option (List Node)} {span : Span}
    (registered : (Node.tag name nameSpan args body span).Registered grammars) :
    (Node.tag name nameSpan args body span).Registered others := by
  obtain ⟨free, grammar, found, block⟩ := registered
  exact ⟨(agree.closes _ listed rfl).trans free, grammar, (agree.found _ listed rfl).trans found,
    block⟩

/-- They agree on what closes a block, in all chunks that such tags head. -/
theorem TagGrammars.Agree.forget (agree : Agree grammars others symbols) {chunks : List Chunk}
    (headed : Headed symbols chunks) :
    chunks.map (Chunk.forget others) = chunks.map (Chunk.forget grammars) := by
  refine List.map_congr_left fun chunk within => Chunk.forget_congr fun name named => ?_
  obtain ⟨symbol, listed, tag, rfl | rfl⟩ := headed chunk within name named
  · exact agree.closes symbol listed tag
  · rw [closesBlock_endName, closesBlock_endName, agree.found symbol listed tag]

mutual

theorem Node.allRegistered_of_agree (node : Node) (agree : grammars.Agree others node.symbols)
    (registered : AllRegistered grammars node.elements) : AllRegistered others node.elements := by
  match node with
  | .text _ _ => exact AllRegistered.cons.mpr ⟨trivial, AllRegistered.nil⟩
  | .output expr _ => exact AllRegistered.cons.mpr ⟨trivial, expr.allRegistered others⟩
  | .assign _ _ value _ => exact AllRegistered.cons.mpr ⟨trivial, value.allRegistered others⟩
  | .branch arms none _ =>
      obtain ⟨present, inner⟩ := AllRegistered.cons.mp registered
      exact AllRegistered.cons.mpr ⟨present, Node.armsRegistered_of_agree arms agree inner⟩
  | .branch arms (some otherwise) _ =>
      obtain ⟨present, inner⟩ := AllRegistered.cons.mp registered
      obtain ⟨tested, last⟩ := AllRegistered.append.mp inner
      have front := Node.armsRegistered_of_agree arms
        (agree.mono (List.subset_append_left _ _)) tested
      have back := Node.listRegistered_of_agree otherwise
        (agree.mono (List.subset_append_right _ _)) last
      exact AllRegistered.cons.mpr ⟨present, AllRegistered.append.mpr ⟨front, back⟩⟩
  | .loop _ _ iterable body _ =>
      obtain ⟨present, inner⟩ := AllRegistered.cons.mp registered
      have back := Node.listRegistered_of_agree body
        (agree.mono (List.subset_append_right iterable.symbols _)) (AllRegistered.append.mp inner).2
      exact AllRegistered.cons.mpr
        ⟨present, AllRegistered.append.mpr ⟨iterable.allRegistered others, back⟩⟩
  | .tag name nameSpan args none _ =>
      have own := (AllRegistered.cons.mp registered).1
      exact AllRegistered.cons.mpr
        ⟨agree.registered_tag List.mem_cons_self own, Arg.allRegistered others args⟩
  | .tag name nameSpan args (some body) _ =>
      obtain ⟨own, inner⟩ := AllRegistered.cons.mp registered
      have back := Node.listRegistered_of_agree body
        (agree.mono (List.subset_append_right
          (⟨.tag, name, nameSpan⟩ :: args.flatMap (·.value.symbols)) _))
        (AllRegistered.append.mp inner).2
      exact AllRegistered.cons.mpr ⟨agree.registered_tag List.mem_cons_self own,
        AllRegistered.append.mpr ⟨Arg.allRegistered others args, back⟩⟩

theorem Node.armsRegistered_of_agree (arms : List (Expr × List Node))
    (agree : grammars.Agree others (Node.armSymbols arms))
    (registered : AllRegistered grammars (Node.armElements arms)) :
    AllRegistered others (Node.armElements arms) := by
  match arms with
  | [] => exact AllRegistered.nil
  | (condition, body) :: rest =>
      obtain ⟨first, last⟩ := AllRegistered.append.mp registered
      have tested := agree.mono (List.subset_append_left _ (Node.armSymbols rest))
      have front := Node.listRegistered_of_agree body
        (tested.mono (List.subset_append_right condition.symbols _))
        (AllRegistered.append.mp first).2
      have back := Node.armsRegistered_of_agree rest
        (agree.mono (List.subset_append_right _ _)) last
      exact AllRegistered.append.mpr
        ⟨AllRegistered.append.mpr ⟨condition.allRegistered others, front⟩, back⟩

theorem Node.listRegistered_of_agree (nodes : List Node)
    (agree : grammars.Agree others (Node.listSymbols nodes))
    (registered : AllRegistered grammars (Node.listElements nodes)) :
    AllRegistered others (Node.listElements nodes) := by
  match nodes with
  | [] => exact AllRegistered.nil
  | node :: rest =>
      obtain ⟨first, last⟩ := AllRegistered.append.mp registered
      exact AllRegistered.append.mpr
        ⟨node.allRegistered_of_agree (agree.mono (List.subset_append_left _ _)) first,
          Node.listRegistered_of_agree rest (agree.mono (List.subset_append_right _ _)) last⟩

end

/-- Chunks are nested to the same tree if the grammars agree on the tags of the tree. -/
theorem Template.ofChunks_of_agree (named : grammars.Named) (named' : others.Named)
    {chunks : List Chunk} {template : Template}
    (agree : grammars.Agree others (Template.symbols template))
    (nested : ofChunks grammars chunks = .ok template) : ofChunks others chunks = .ok template := by
  have built := built_of_ofChunks nested
  have flat := built.flat named
  have headed := Node.headed_listChunks template
  have headed' := Headed.of_forget flat headed
  apply ofChunks_of_flat named'
  · rw [agree.forget headed', flat]
    exact (agree.forget headed).symm
  · exact Node.listRegistered_of_agree template agree built.registered
  · exact built.depth

theorem Template.parse_of_agree (named : grammars.Named) (named' : others.Named) {source : String}
    {template : Template} (agree : grammars.Agree others (Template.symbols template))
    (parsed : parse grammars source = .ok template) : parse others source = .ok template := by
  unfold parse at parsed ⊢
  cases read : Chunk.ofSource source with
  | error error =>
      rw [read] at parsed
      cases parsed
  | ok chunks =>
      rw [read] at parsed
      exact ofChunks_of_agree named named' agree parsed

end Agree

/-- Two lists of names that do not differ on the filters among symbols. -/
def MarkAlike (names others : List String) (symbols : List Symbol) : Prop :=
  ∀ symbol ∈ symbols, symbol.kind = .filter →
    names.contains symbol.name = others.contains symbol.name

theorem Template.awaiting_congr {names others : List String} {template : Template}
    (alike : MarkAlike names others (Template.symbols template)) :
    template.awaiting names = template.awaiting others := by
  rw [awaiting_eq_revise, awaiting_eq_revise]
  refine revise_congr (.of_filters rfl fun awaited target name nameSpan args span within => ?_)
  have named : ⟨.filter, name, nameSpan⟩ ∈ Element.symbols (Template.elements template) :=
    List.mem_filterMap.mpr ⟨_, within, rfl⟩
  have same := alike _ (template.symbols_perm.mem_iff.mpr named) rfl
  simp only [Revision.awaiting, same]

end QueryTemplate
