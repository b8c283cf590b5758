import QueryTemplate.Proofs.Template.Building

set_option autoImplicit false

/- Nesting and flattening undo each other: a list of chunks is nested to a tree just when it is the
flattening of that tree, whose nodes are registered and whose blocks nest no deeper than the limit.
-/

namespace QueryTemplate

variable {grammars : TagGrammars} {limit : Nat}

namespace Chunk

variable {chunk opener : Chunk} {stop : Stop} {used body after : List Chunk}

theorem eq_singleton_of_forget (opens : chunk.stop? grammars = none)
    (flat : used.map (forget grammars) = [chunk].map (forget grammars)) : used = [chunk] := by
  obtain ⟨other, _, rfl, same, nothing⟩ := List.map_eq_cons_iff.mp flat
  rw [eq_of_forget same opens, List.map_eq_nil_iff.mp nothing]

/-- A body, a header that ends it, and what comes after. -/
theorem exists_header_of_forget (stop : Stop) (stops : stop.chunk.stop? grammars = some stop)
    (flat : used.map (forget grammars) = (body ++ stop.chunk :: after).map (forget grammars)) :
    ∃ inner header rest, used = inner ++ header :: rest ∧
      inner.map (forget grammars) = body.map (forget grammars) ∧
      header.stop? grammars = some stop ∧
      rest.map (forget grammars) = after.map (forget grammars) := by
  rw [List.map_append] at flat
  obtain ⟨inner, _, rfl, front, back⟩ := List.map_eq_append_iff.mp flat
  obtain ⟨header, rest, rfl, same, rear⟩ := List.map_eq_cons_iff.mp back
  exact ⟨inner, header, rest, rfl, front, stop?_of_forget same stops, rear⟩

theorem exists_closer_of_forget (stop : Stop) (stops : stop.chunk.stop? grammars = some stop)
    (flat : used.map (forget grammars) = (body ++ [stop.chunk]).map (forget grammars)) :
    ∃ inner closer, used = inner ++ [closer] ∧
      inner.map (forget grammars) = body.map (forget grammars) ∧
      closer.stop? grammars = some stop := by
  obtain ⟨inner, closer, rest, rfl, front, closes, nothing⟩ := exists_header_of_forget stop stops flat
  rw [List.map_eq_nil_iff.mp nothing]
  exact ⟨inner, closer, rfl, front, closes⟩

/-- The header of a block in front of its body. -/
theorem exists_rest_of_forget (opens : opener.stop? grammars = none)
    (flat : used.map (forget grammars) = (opener :: body).map (forget grammars)) :
    ∃ inner, used = opener :: inner ∧ inner.map (forget grammars) = body.map (forget grammars) := by
  obtain ⟨other, inner, rfl, same, rest⟩ := List.map_eq_cons_iff.mp flat
  exact ⟨inner, by rw [eq_of_forget same opens], rest⟩

end Chunk

/-- What comes after a body: nothing, or a header that ends the body. -/
def BodyEnds (grammars : TagGrammars) : List Chunk → Prop
  | [] => True
  | chunk :: _ => ∃ stop, chunk.stop? grammars = some stop

theorem readNodes_ends (body : BodyReader) {tail : List Chunk} (ends : BodyEnds grammars tail) :
    ∃ run : Run tail, readNodes grammars body tail = .ok run ∧ run.Leaves grammars [] tail := by
  cases tail with
  | nil => exact ⟨.ended [], readNodes_nil grammars body, rfl, rfl⟩
  | cons chunk rest =>
      obtain ⟨stop, stops⟩ := ends
      refine ⟨.stopped [] stop chunk.span rest (Nat.lt_succ_self _), ?_, rfl, chunk, rfl, stops, rfl⟩
      unfold Chunk.stop? at stops
      split at stops
      case h_5 name _ _ _ =>
        split at stops
        next closes =>
          cases stops
          rw [readNodes, if_pos closes]
          rfl
        next => cases stops
      all_goals cases stops
      all_goals rw [readNodes]
      all_goals rfl

theorem Run.leaves_cons {node : Node} {nodes : List Node} {tail rest chunks : List Chunk}
    {run : Run rest} (leaves : run.Leaves grammars nodes tail)
    (shorter : rest.length < chunks.length) :
    (run.cons node shorter).Leaves grammars (node :: nodes) tail := by
  cases run with
  | ended found => exact ⟨congrArg _ leaves.1, leaves.2⟩
  | stopped found stop span after below => exact ⟨congrArg _ leaves.1, leaves.2⟩

/-- Wherever the chunks of these nodes stand at the end of a body, the nodes are read from them. -/
def Node.ListRebuilds (grammars : TagGrammars) (limit : Nat) (nodes : List Node) : Prop :=
  ∀ used tail, used.map (Chunk.forget grammars) = (listChunks nodes).map (Chunk.forget grammars) →
    BodyEnds grammars tail →
    ∃ run, readNodes grammars (readBody grammars limit) (used ++ tail) = .ok run ∧
      run.Leaves grammars nodes tail

/-- Wherever the chunks of this node stand, the node is read from them, and then what comes after
them. -/
def Node.Rebuilds (grammars : TagGrammars) (limit : Nat) (node : Node) : Prop :=
  ∀ used rest inner, used.map (Chunk.forget grammars) = node.chunks.map (Chunk.forget grammars) →
    readNodes grammars (readBody grammars limit) rest = .ok inner →
    ∃ shorter, readNodes grammars (readBody grammars limit) (used ++ rest) =
      .ok (inner.cons node shorter)

namespace Node

variable {node : Node} {nodes body : List Node} {opener : Span} {rest used inner : List Chunk}
  {closer : Chunk} {stop : Stop}

theorem listRebuilds_nil : ListRebuilds grammars limit [] := by
  intro used tail flat ends
  rw [List.map_eq_nil_iff.mp flat]
  exact readNodes_ends _ ends

theorem listRebuilds_cons (head : node.Rebuilds grammars limit)
    (tail : ListRebuilds grammars limit nodes) : ListRebuilds grammars limit (node :: nodes) := by
  intro used rest flat ends
  rw [listChunks, List.map_append] at flat
  obtain ⟨first, others, rfl, front, back⟩ := List.map_eq_append_iff.mp flat
  obtain ⟨run, read, leaves⟩ := tail others rest back ends
  obtain ⟨shorter, again⟩ := head first (others ++ rest) run front read
  rw [List.append_assoc]
  exact ⟨run.cons node shorter, again, Run.leaves_cons leaves shorter⟩

/-- A body is read up to the header that ends it. -/
theorem ListRebuilds.readBody (list : ListRebuilds grammars limit body) (opener : Span)
    (flat : inner.map (Chunk.forget grammars) = (listChunks body).map (Chunk.forget grammars))
    (closes : closer.stop? grammars = some stop) (rest : List Chunk) :
    ∃ span shorter, readBody grammars (limit + 1) opener (inner ++ closer :: rest) =
      .ok (.stopped body stop span rest shorter) := by
  obtain ⟨run, read, leaves⟩ := list inner (closer :: rest) flat ⟨stop, closes⟩
  cases run with
  | ended found => exact nomatch leaves.2
  | stopped found other span after shorter =>
      obtain ⟨rfl, _, same, stops, rfl⟩ := leaves
      cases same
      cases closes.symm.trans stops
      exact ⟨closer.span, shorter, read⟩

/-- A node of one chunk, which is read at once. -/
theorem rebuilds_single {chunk : Chunk} (one : node.chunks = [chunk])
    (opens : chunk.stop? grammars = none)
    (step : ∀ rest, readNodes grammars (readBody grammars limit) (chunk :: rest) =
      (readNodes grammars (readBody grammars limit) rest).map
        (Run.cons node (Nat.lt_succ_self _))) :
    node.Rebuilds grammars limit := by
  intro used rest inner flat read
  rw [one] at flat
  have single := Chunk.eq_singleton_of_forget opens flat
  subst single
  refine ⟨Nat.lt_succ_self _, ?_⟩
  show readNodes grammars (readBody grammars limit) (chunk :: rest) = _
  rw [step, read]
  rfl

theorem rebuilds_inline {grammar : TagGrammar} {name : String}
    (free : grammars.closesBlock name = false) (found : Table.get? grammars name = some grammar)
    (inline : grammar.block = false) (nameSpan : Span) (args : List Arg) (span : Span) :
    (Node.tag name nameSpan args none span).Rebuilds grammars limit := by
  apply rebuilds_single rfl
  · rw [Chunk.stop?, free]
    rfl
  · intro rest
    rw [readNodes, free, found]
    simp only [inline, Bool.false_eq_true, ↓reduceIte]

theorem rebuilds_loop (list : ListRebuilds grammars limit body) (var : String) (varSpan : Span)
    (iterable : Expr) (span : Span) :
    (Node.loop var varSpan iterable body span).Rebuilds grammars (limit + 1) := by
  intro used rest run flat read
  obtain ⟨_, rfl, more⟩ := Chunk.exists_rest_of_forget (by rfl) flat
  obtain ⟨inner, closer, rfl, inside, closes⟩ :=
    Chunk.exists_closer_of_forget .endLoop (by rfl) more
  obtain ⟨_, shorter, found⟩ := list.readBody span inside closes rest
  rw [List.cons_append, List.append_assoc]
  refine ⟨Nat.lt_succ_of_lt shorter, ?_⟩
  rw [readNodes]
  simp only [List.cons_append, List.nil_append, found, read]
  rfl

theorem rebuilds_block {grammar : TagGrammar} {name : String}
    (free : grammars.closesBlock name = false) (found : Table.get? grammars name = some grammar)
    (block : grammar.block = true) (own : grammar.name = name)
    (list : ListRebuilds grammars limit body) (nameSpan : Span) (args : List Arg) (span : Span) :
    (Node.tag name nameSpan args (some body) span).Rebuilds grammars (limit + 1) := by
  intro used rest run flat read
  have opens : (Chunk.header (.tag name nameSpan args) span).stop? grammars = none := by
    rw [Chunk.stop?, free]
    rfl
  have ends : grammars.closesBlock (TagGrammar.endName name) = true := by
    rw [TagGrammars.closesBlock_endName, found]
    exact block
  have stops : (Stop.endTag (TagGrammar.endName name)).chunk.stop? grammars =
      some (.endTag (TagGrammar.endName name)) := by
    rw [Stop.chunk, Chunk.stop?, if_pos ends]
  obtain ⟨_, rfl, more⟩ := Chunk.exists_rest_of_forget opens flat
  obtain ⟨inner, closer, rfl, inside, closes⟩ := Chunk.exists_closer_of_forget _ stops more
  obtain ⟨_, shorter, again⟩ := list.readBody span inside closes rest
  rw [List.cons_append, List.append_assoc]
  refine ⟨Nat.lt_succ_of_lt shorter, ?_⟩
  rw [readNodes, free, found]
  simp only [List.cons_append, List.nil_append, again, read, block, TagGrammar.endTag, own,
    Bool.false_eq_true, ↓reduceIte]
  rfl

theorem armsRebuild {otherwise : Option (List Node)} {arms : List (Expr × List Node)}
    (condition : Expr) (list : ListRebuilds grammars limit body)
    (others : ∀ arm ∈ arms, ListRebuilds grammars limit arm.2)
    (last : ∀ nodes, otherwise = some nodes → ListRebuilds grammars limit nodes)
    (flat : used.map (Chunk.forget grammars) =
      (listChunks body ++ (armsChunks (fun condition => (Stop.elif condition).chunk) arms ++
        (otherwiseChunks otherwise ++ [Stop.endBranch.chunk]))).map (Chunk.forget grammars))
    (opener : Span) (rest : List Chunk) :
    ∃ shorter, readArms (readBody grammars (limit + 1)) opener condition (used ++ rest) =
      .ok ⟨(condition, body) :: arms, otherwise, rest, shorter⟩ := by
  induction arms generalizing used body condition with
  | nil =>
      cases otherwise with
      | none =>
          obtain ⟨inner, closer, rfl, inside, closes⟩ :=
            Chunk.exists_closer_of_forget .endBranch (by rfl) flat
          obtain ⟨_, shorter, found⟩ := list.readBody opener inside closes rest
          rw [List.append_assoc, List.singleton_append]
          refine ⟨shorter, ?_⟩
          rw [readArms]
          simp only [found]
      | some nodes =>
          obtain ⟨inner, header, _, rfl, inside, turns, more⟩ :=
            Chunk.exists_header_of_forget .otherwise (by rfl) flat
          obtain ⟨after, closer, rfl, final, closes⟩ :=
            Chunk.exists_closer_of_forget .endBranch (by rfl) more
          obtain ⟨_, less, found⟩ := list.readBody opener inside turns (after ++ closer :: rest)
          obtain ⟨_, shorter, again⟩ := (last nodes rfl).readBody opener final closes rest
          rw [List.append_assoc, List.cons_append, List.append_assoc, List.singleton_append]
          refine ⟨Nat.lt_trans shorter less, ?_⟩
          rw [readArms]
          simp only [found, again]
  | cons arm arms ih =>
      obtain ⟨next, nodes⟩ := arm
      rw [armsChunks, List.append_assoc] at flat
      obtain ⟨inner, header, after, rfl, inside, turns, more⟩ :=
        Chunk.exists_header_of_forget (.elif next) (by rfl) flat
      obtain ⟨_, less, found⟩ := list.readBody opener inside turns (after ++ rest)
      have here : ListRebuilds grammars limit nodes := others (next, nodes) List.mem_cons_self
      obtain ⟨shorter, again⟩ :=
        ih next here (fun arm within => others arm (List.mem_cons_of_mem _ within)) more
      rw [List.append_assoc, List.cons_append]
      refine ⟨Nat.lt_trans shorter less, ?_⟩
      rw [readArms]
      simp only [found, again]

theorem rebuilds_branch {condition : Expr} {otherwise : Option (List Node)}
    {arms : List (Expr × List Node)} (list : ListRebuilds grammars limit body)
    (others : ∀ arm ∈ arms, ListRebuilds grammars limit arm.2)
    (last : ∀ nodes, otherwise = some nodes → ListRebuilds grammars limit nodes) (span : Span) :
    (Node.branch ((condition, body) :: arms) otherwise span).Rebuilds grammars (limit + 1) := by
  intro used rest run flat read
  rw [chunks_branch, armsChunks, List.append_assoc, List.append_assoc] at flat
  obtain ⟨inner, rfl, more⟩ := Chunk.exists_rest_of_forget (by rfl) flat
  obtain ⟨shorter, found⟩ := armsRebuild condition list others last more span rest
  rw [List.cons_append]
  refine ⟨Nat.lt_succ_of_lt shorter, ?_⟩
  rw [readNodes, found]
  simp only [read]
  rfl

end Node

mutual

theorem Node.rebuilds (named : grammars.Named) (node : Node) {limit : Nat}
    (registered : AllRegistered grammars node.elements) (depth : node.depth ≤ limit) :
    node.Rebuilds grammars limit := by
  match node with
  | .text content span => exact rebuilds_single rfl rfl fun rest => by rw [readNodes]
  | .output expr span => exact rebuilds_single rfl rfl fun rest => by rw [readNodes]
  | .assign var varSpan value span => exact rebuilds_single rfl rfl fun rest => by rw [readNodes]
  | .loop var varSpan iterable body span =>
      obtain ⟨below, rfl⟩ := Nat.exists_eq_add_of_lt depth
      have parts := (AllRegistered.cons.mp registered).2
      have inner := (AllRegistered.append.mp parts).2
      have list := Node.listRebuilds named body inner (Nat.le_add_right _ below)
      exact rebuilds_loop list var varSpan iterable span
  | .branch [] otherwise span =>
      have present : Node.Registered grammars (.branch [] otherwise span) := by
        cases otherwise <;> exact (AllRegistered.cons.mp registered).1
      exact absurd rfl present
  | .branch ((condition, body) :: arms) none span =>
      obtain ⟨below, rfl⟩ := Nat.exists_eq_add_of_lt depth
      have parts := (AllRegistered.cons.mp registered).2
      obtain ⟨first, others⟩ := AllRegistered.append.mp parts
      have inner := (AllRegistered.append.mp first).2
      have deep := Nat.max_le.mp (Nat.le_add_right (armsDepth ((condition, body) :: arms)) below)
      apply rebuilds_branch (Node.listRebuilds named body inner deep.1)
        (Node.armsRebuilds named arms others deep.2)
      exact fun _ absent => nomatch absent
  | .branch ((condition, body) :: arms) (some nodes) span =>
      obtain ⟨below, rfl⟩ := Nat.exists_eq_add_of_lt depth
      have parts := (AllRegistered.cons.mp registered).2
      obtain ⟨tested, final⟩ := AllRegistered.append.mp parts
      obtain ⟨first, others⟩ := AllRegistered.append.mp tested
      have inner := (AllRegistered.append.mp first).2
      have deep := Nat.max_le.mp (Nat.le_add_right
        (max (armsDepth ((condition, body) :: arms)) (listDepth nodes)) below)
      have deeper := Nat.max_le.mp deep.1
      apply rebuilds_branch (Node.listRebuilds named body inner deeper.1)
        (Node.armsRebuilds named arms others deeper.2)
      intro nodes same
      cases same
      exact Node.listRebuilds named nodes final deep.2
  | .tag name nameSpan args none span =>
      obtain ⟨⟨free, grammar, found, inline⟩, _⟩ := AllRegistered.cons.mp registered
      exact rebuilds_inline free found inline nameSpan args span
  | .tag name nameSpan args (some body) span =>
      obtain ⟨below, rfl⟩ := Nat.exists_eq_add_of_lt depth
      obtain ⟨⟨free, grammar, found, block⟩, parts⟩ := AllRegistered.cons.mp registered
      have inner := (AllRegistered.append.mp parts).2
      have list := Node.listRebuilds named body inner (Nat.le_add_right _ below)
      exact rebuilds_block free found block (named name grammar found) list nameSpan args span

theorem Node.listRebuilds (named : grammars.Named) (nodes : List Node) {limit : Nat}
    (registered : AllRegistered grammars (listElements nodes)) (depth : listDepth nodes ≤ limit) :
    ListRebuilds grammars limit nodes := by
  match nodes with
  | [] => exact listRebuilds_nil
  | node :: rest =>
      obtain ⟨head, tail⟩ := AllRegistered.append.mp registered
      have deep := Nat.max_le.mp depth
      exact listRebuilds_cons (node.rebuilds named head deep.1)
        (Node.listRebuilds named rest tail deep.2)

theorem Node.armsRebuilds (named : grammars.Named) (arms : List (Expr × List Node)) {limit : Nat}
    (registered : AllRegistered grammars (armElements arms)) (depth : armsDepth arms ≤ limit) :
    ∀ arm ∈ arms, ListRebuilds grammars limit arm.2 := by
  match arms with
  | [] => exact fun _ within => nomatch within
  | (condition, body) :: rest =>
      obtain ⟨first, others⟩ := AllRegistered.append.mp registered
      have inner := (AllRegistered.append.mp first).2
      have deep := Nat.max_le.mp depth
      intro arm within
      rcases List.mem_cons.mp within with rfl | within
      · exact Node.listRebuilds named body inner deep.1
      · exact Node.armsRebuilds named rest others deep.2 arm within

end

namespace TagGrammars

theorem Named.insert (named : grammars.Named) (grammar : TagGrammar) :
    Named (Table.insert grammars grammar.name grammar) := by
  intro name found here
  by_cases same : name = grammar.name
  · rw [same, Table.get?_insert_self] at here
    cases here
    exact same.symm
  · rw [Table.get?_insert_of_ne _ _ same] at here
    exact named name found here

theorem named_ofList (list : List TagGrammar) : (ofList list).Named := by
  have folded (start : TagGrammars) (named : start.Named) :
      Named ((list.map fun grammar => (grammar.name, grammar)).foldl
        (fun table entry => Table.insert table entry.1 entry.2) start) := by
    induction list generalizing start with
    | nil => exact named
    | cons grammar rest ih => exact ih _ (named.insert grammar)
  exact folded [] fun _ _ found => nomatch found

end TagGrammars

namespace Template

theorem ofChunks_of_flat (named : grammars.Named) {chunks : List Chunk} {template : Template}
    (flat : chunks.map (Chunk.forget grammars) = template.chunks.map (Chunk.forget grammars))
    (registered : AllRegistered grammars template.elements)
    (depth : Node.listDepth template ≤ maxNesting) : ofChunks grammars chunks = .ok template := by
  have whole := Node.listRebuilds named template registered depth chunks [] flat trivial
  rw [List.append_nil] at whole
  obtain ⟨run, read, leaves⟩ := whole
  cases run with
  | ended nodes =>
      obtain ⟨rfl, -⟩ := leaves
      rw [ofChunks, read]
  | stopped nodes stop span rest shorter =>
      obtain ⟨_, _, nothing, _⟩ := leaves
      cases nothing

/-- Chunks are nested to a tree just when they are its flattening, as far as the tree keeps them, its
nodes are registered and its blocks nest no deeper than the limit. So every such tree is what its own
flattening is nested to. -/
theorem nesting_inverts_flattening (named : grammars.Named) (template : Template) :
    (∀ chunks, ofChunks grammars chunks = .ok template ↔
      chunks.map (Chunk.forget grammars) = template.chunks.map (Chunk.forget grammars) ∧
        AllRegistered grammars template.elements ∧ Node.listDepth template ≤ maxNesting) ∧
      (AllRegistered grammars template.elements → Node.listDepth template ≤ maxNesting →
        ofChunks grammars template.chunks = .ok template) := by
  refine ⟨fun chunks => ⟨fun nested => ?_, ?_⟩, fun registered depth => ?_⟩
  · have built := built_of_ofChunks nested
    exact ⟨built.flat named, built.registered, built.depth⟩
  · rintro ⟨flat, registered, depth⟩
    exact ofChunks_of_flat named flat registered depth
  · exact ofChunks_of_flat named rfl registered depth

/-- The closers come back without their places, and the block tag's without its argument. -/
theorem nesting_inverts_flattening_mixed :
    let grammars := TagGrammars.ofList [⟨"req", true⟩, ⟨"now", false⟩]
    let condition := Expr.var "a" ⟨6, 7⟩
    let header := Header.tag "req" ⟨14, 17⟩ []
    let chunks : List Chunk := [.header (.branch condition) ⟨0, 11⟩, .header header ⟨11, 20⟩,
      .header (.tag "now" ⟨23, 26⟩ []) ⟨20, 29⟩,
      .header (.tag "endreq" ⟨32, 38⟩ [.positional condition]) ⟨29, 43⟩,
      .header .otherwise ⟨43, 53⟩, .header .endBranch ⟨53, 64⟩]
    let template : Template := [.branch [(condition, [.tag "req" ⟨14, 17⟩ []
      (some [.tag "now" ⟨23, 26⟩ [] none ⟨20, 29⟩]) ⟨11, 20⟩])] (some []) ⟨0, 11⟩]
    grammars.Named ∧ ofChunks grammars chunks = .ok template ∧
      AllRegistered grammars template.elements ∧ Node.listDepth template = 2 ∧
      ofChunks grammars template.chunks = .ok template := by
  intro grammars condition header chunks template
  have named : grammars.Named := TagGrammars.named_ofList _
  have registered : AllRegistered grammars template.elements := by
    intro node within
    simp only [template, condition, elements, Node.listElements, Node.elements, Node.armElements,
      Expr.elements, List.flatMap_nil, List.nil_append, List.append_nil, List.cons_append,
      List.mem_cons, List.not_mem_nil, Element.node.injEq, reduceCtorEq, false_or, or_false]
      at within
    rcases within with rfl | rfl | rfl
    · exact List.cons_ne_nil _ _
    · exact ⟨by decide +kernel, _, rfl, rfl⟩
    · exact ⟨by decide +kernel, _, rfl, rfl⟩
  obtain ⟨inverse, back⟩ := nesting_inverts_flattening named template
  have depth : Node.listDepth template = 2 := by decide
  have nested := (inverse chunks).mpr ⟨by rfl, registered, by rw [depth]; decide⟩
  exact ⟨named, nested, registered, depth, back registered (by rw [depth]; decide)⟩

end Template

end QueryTemplate
