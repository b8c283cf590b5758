import QueryTemplate.Proofs.Template.Readings
import QueryTemplate.Proofs.Template.Walks

set_option autoImplicit false

/- Trees that are built from chunks: flattening gives the chunks back, all nodes are registered,
blocks nest no deeper than the reader of bodies allows, and all elements are met in the order of the
chunks. -/

namespace QueryTemplate

variable {grammars : TagGrammars} {limit below : Nat}

/-- A node and the chunks that it was built from. Only where tags are registered under their own
names are the closers those of a flattening. -/
structure Node.Built (grammars : TagGrammars) (limit : Nat) (node : Node) (used : List Chunk) :
    Prop where
  flat : grammars.Named →
    used.map (Chunk.forget grammars) = node.chunks.map (Chunk.forget grammars)
  registered : AllRegistered grammars node.elements
  depth : node.depth ≤ limit
  walk : Walk node.elements node.symbols used

structure Node.ListBuilt (grammars : TagGrammars) (limit : Nat) (nodes : List Node)
    (used : List Chunk) : Prop where
  flat : grammars.Named →
    used.map (Chunk.forget grammars) = (listChunks nodes).map (Chunk.forget grammars)
  registered : AllRegistered grammars (listElements nodes)
  depth : listDepth nodes ≤ limit
  walk : Walk (listElements nodes) (listSymbols nodes) used

/-- The arms of a block, whatever header the first one has, and the chunks after that header. -/
structure Node.ArmsBuilt (grammars : TagGrammars) (limit : Nat) (condition : Expr)
    (arms : List (Expr × List Node)) (otherwise : Option (List Node)) (used : List Chunk) :
    Prop where
  flat : grammars.Named →
    ∀ header : Expr → Chunk, (header condition :: used).map (Chunk.forget grammars) =
      (armsChunks header arms ++ otherwiseChunks otherwise ++ [Stop.endBranch.chunk]).map
        (Chunk.forget grammars)
  registered : AllRegistered grammars (armElements arms ++ otherwiseElements otherwise)
  depth : max (armsDepth arms) (otherwiseDepth otherwise) ≤ limit
  walk : ∃ body rest elements symbols, arms = (condition, body) :: rest ∧
    armElements arms ++ otherwiseElements otherwise = condition.elements ++ elements ∧
    armSymbols arms ++ otherwiseSymbols otherwise = condition.symbols ++ symbols ∧
    Walk elements symbols used

namespace Node

variable {node : Node} {nodes body : List Node} {used others inner : List Chunk} {closer : Chunk}

theorem listBuilt_nil : ListBuilt grammars limit [] [] :=
  ⟨fun _ => rfl, AllRegistered.nil, Nat.zero_le _, .nil⟩

theorem listBuilt_cons (head : node.Built grammars limit used)
    (tail : ListBuilt grammars limit nodes others) :
    ListBuilt grammars limit (node :: nodes) (used ++ others) where
  flat named := by rw [listChunks, List.map_append, List.map_append, head.flat named, tail.flat named]
  registered := AllRegistered.append.mpr ⟨head.registered, tail.registered⟩
  depth := Nat.max_le.mpr ⟨head.depth, tail.depth⟩
  walk := head.walk.append tail.walk

theorem built_text (content : String) (span : Span) :
    (Node.text content span).Built grammars limit [.text content span] where
  flat _ := rfl
  registered := AllRegistered.cons.mpr ⟨trivial, AllRegistered.nil⟩
  depth := Nat.zero_le _
  walk := .one (.text content span)

theorem built_output (expr : Expr) (span : Span) :
    (Node.output expr span).Built grammars limit [.output expr span] where
  flat _ := rfl
  registered := AllRegistered.cons.mpr ⟨trivial, expr.allRegistered grammars⟩
  depth := Nat.zero_le _
  walk := .one (.output expr span)

theorem built_assign (var : String) (varSpan : Span) (value : Expr) (span : Span) :
    (Node.assign var varSpan value span).Built grammars limit
      [.header (.assign var varSpan value) span] where
  flat _ := rfl
  registered := AllRegistered.cons.mpr ⟨trivial, value.allRegistered grammars⟩
  depth := Nat.zero_le _
  walk := .one (.assign var varSpan value span)

/-- What is left of a closer does not depend on the place where it was found. -/
theorem map_forget_closer {stop : Stop} (closes : closer.stop? grammars = some stop)
    (opener : Chunk) (named : grammars.Named) (list : ListBuilt grammars below body inner) :
    (opener :: inner ++ [closer]).map (Chunk.forget grammars) =
      (opener :: listChunks body ++ [stop.chunk]).map (Chunk.forget grammars) := by
  simp only [List.map_append, List.map_cons, List.map_nil, list.flat named,
    Chunk.forget_chunk closes]

theorem built_loop (list : ListBuilt grammars below body inner) (deeper : below < limit)
    (closes : closer.stop? grammars = some .endLoop) (var : String) (varSpan : Span)
    (iterable : Expr) (span : Span) :
    (Node.loop var varSpan iterable body span).Built grammars limit
      (.header (.loop var varSpan iterable) span :: inner ++ [closer]) where
  flat named := map_forget_closer closes _ named list
  registered := by
    refine AllRegistered.cons.mpr ⟨trivial, ?_⟩
    exact AllRegistered.append.mpr ⟨iterable.allRegistered grammars, list.registered⟩
  depth := Nat.lt_of_le_of_lt list.depth deeper
  walk := (list.walk.enter (.loop var varSpan iterable body span)).close closer

theorem built_inline {grammar : TagGrammar} {name : String}
    (free : grammars.closesBlock name = false) (found : Table.get? grammars name = some grammar)
    (inline : grammar.block = false) (nameSpan : Span) (args : List Arg) (span : Span) :
    (Node.tag name nameSpan args none span).Built grammars limit
      [.header (.tag name nameSpan args) span] where
  flat _ := rfl
  registered := AllRegistered.cons.mpr
    ⟨⟨free, grammar, found, inline⟩, Arg.allRegistered grammars args⟩
  depth := Nat.zero_le _
  walk := .one (.tag name nameSpan args none span)

theorem built_block {grammar : TagGrammar} {name : String}
    (free : grammars.closesBlock name = false) (found : Table.get? grammars name = some grammar)
    (block : grammar.block = true) (list : ListBuilt grammars below body inner)
    (deeper : below < limit) (closes : closer.stop? grammars = some (.endTag grammar.endTag))
    (nameSpan : Span) (args : List Arg) (span : Span) :
    (Node.tag name nameSpan args (some body) span).Built grammars limit
      (.header (.tag name nameSpan args) span :: inner ++ [closer]) where
  flat named := by
    rw [TagGrammar.endTag, named name grammar found] at closes
    exact map_forget_closer closes _ named list
  registered := by
    refine AllRegistered.cons.mpr ⟨⟨free, grammar, found, block⟩, ?_⟩
    exact AllRegistered.append.mpr ⟨Arg.allRegistered grammars args, list.registered⟩
  depth := Nat.lt_of_le_of_lt list.depth deeper
  walk := (list.walk.enter (.tag name nameSpan args (some body) span)).close closer

theorem built_branch {condition : Expr} {arms : List (Expr × List Node)}
    {otherwise : Option (List Node)}
    (block : ArmsBuilt grammars below condition arms otherwise used) (deeper : below < limit)
    (span : Span) :
    (Node.branch arms otherwise span).Built grammars limit
      (.header (.branch condition) span :: used) where
  flat named := by
    rw [chunks_branch]
    exact block.flat named fun condition => .header (.branch condition) span
  registered := by
    obtain ⟨_, _, _, _, rfl, -⟩ := block.walk
    rw [elements_branch]
    exact AllRegistered.cons.mpr ⟨List.cons_ne_nil _ _, block.registered⟩
  depth := by
    rw [depth_branch]
    exact Nat.lt_of_le_of_lt block.depth deeper
  walk := by
    obtain ⟨body, rest, _, _, rfl, elements, symbols, walk⟩ := block.walk
    rw [elements_branch, symbols_branch, elements, symbols]
    exact walk.enter (.branch condition body rest otherwise span)

end Node

/-- The nodes of a run, and the chunks that it leaves: none, or a header that ends the body and what
comes after it. -/
def Run.Leaves (grammars : TagGrammars) (nodes : List Node) (tail : List Chunk)
    {chunks : List Chunk} : Run chunks → Prop
  | ended found => found = nodes ∧ tail = []
  | stopped found stop span rest _ =>
    found = nodes ∧ ∃ chunk, tail = chunk :: rest ∧ chunk.stop? grammars = some stop ∧
      chunk.span = span

/-- A run is built from the chunks in front of those that it leaves. -/
def Run.Built (grammars : TagGrammars) (limit : Nat) {chunks : List Chunk} (run : Run chunks) :
    Prop :=
  ∃ nodes used tail, chunks = used ++ tail ∧ run.Leaves grammars nodes tail ∧
    Node.ListBuilt grammars limit nodes used

/-- Bodies are built, and their blocks nest less deeply than the limit. -/
def BodyBuilds (grammars : TagGrammars) (limit : Nat) (body : BodyReader) : Prop :=
  ∀ opener chunks run, body opener chunks = .ok run →
    0 < limit ∧ run.Built grammars (limit - 1)

theorem Run.built_cons {node : Node} {used rest chunks : List Chunk} {run : Run rest}
    (head : node.Built grammars limit used) (split : chunks = used ++ rest)
    (tail : run.Built grammars limit) (shorter : rest.length < chunks.length) :
    (run.cons node shorter).Built grammars limit := by
  obtain ⟨nodes, others, left, rfl, leaves, list⟩ := tail
  refine ⟨node :: nodes, used ++ others, left, by rw [split, List.append_assoc], ?_,
    Node.listBuilt_cons head list⟩
  cases run with
  | ended found => exact ⟨congrArg _ leaves.1, leaves.2⟩
  | stopped found stop span after below => exact ⟨congrArg _ leaves.1, leaves.2⟩

/-- A run that a header ends. -/
theorem Run.built_stopped {nodes : List Node} {stop : Stop} {span : Span}
    {rest chunks : List Chunk} {shorter : rest.length < chunks.length}
    (built : (Run.stopped nodes stop span rest shorter).Built grammars limit) :
    ∃ used closer, chunks = used ++ closer :: rest ∧ closer.stop? grammars = some stop ∧
      Node.ListBuilt grammars limit nodes used := by
  obtain ⟨_, used, _, split, ⟨rfl, closer, rfl, stops, _⟩, list⟩ := built
  exact ⟨used, closer, split, stops, list⟩

section

variable {condition : Expr} {nodes last : List Node} {inner used : List Chunk} {closer : Chunk}

theorem Node.armsBuilt_end (list : ListBuilt grammars limit nodes inner)
    (closes : closer.stop? grammars = some .endBranch) :
    ArmsBuilt grammars limit condition [(condition, nodes)] none (inner ++ [closer]) where
  flat named header := by
    simp only [armsChunks, otherwiseChunks, List.append_nil, List.cons_append, List.map_cons,
      List.map_append, List.map_nil, list.flat named, Chunk.forget_chunk closes]
  registered := by
    have own := AllRegistered.append.mpr ⟨condition.allRegistered grammars, list.registered⟩
    simpa only [armElements, otherwiseElements, List.append_nil] using own
  depth := by simpa only [armsDepth, otherwiseDepth, Nat.max_zero] using list.depth
  walk := by
    refine ⟨nodes, [], _, _, rfl, ?_, ?_, list.walk.close closer⟩
    · rw [armElements, armElements, otherwiseElements, List.append_nil, List.append_nil]
    · rw [armSymbols, armSymbols, otherwiseSymbols, List.append_nil, List.append_nil]

theorem Node.armsBuilt_otherwise {middle : Chunk} {after : List Chunk}
    (list : ListBuilt grammars limit nodes inner)
    (turns : middle.stop? grammars = some .otherwise) (final : ListBuilt grammars limit last after)
    (closes : closer.stop? grammars = some .endBranch) :
    ArmsBuilt grammars limit condition [(condition, nodes)] (some last)
      (inner ++ middle :: (after ++ [closer])) where
  flat named header := by
    simp only [armsChunks, otherwiseChunks, List.append_nil, List.cons_append, List.append_assoc,
      List.map_cons, List.map_append, List.map_nil, list.flat named, final.flat named,
      Chunk.forget_chunk closes, Chunk.forget_chunk turns]
  registered := by
    have own := AllRegistered.append.mpr ⟨condition.allRegistered grammars, list.registered⟩
    have both := AllRegistered.append.mpr ⟨own, final.registered⟩
    simpa only [armElements, otherwiseElements, List.append_nil] using both
  depth := by
    have both := Nat.max_le.mpr ⟨list.depth, final.depth⟩
    simpa only [armsDepth, otherwiseDepth, Nat.max_zero] using both
  walk := by
    refine ⟨nodes, [], _, _, rfl, ?_, ?_, list.walk.append ((final.walk.close closer).pass middle)⟩
    · rw [armElements, armElements, otherwiseElements, List.append_nil, List.append_assoc]
    · rw [armSymbols, armSymbols, otherwiseSymbols, List.append_nil, List.append_assoc]

theorem Node.armsBuilt_elif {next : Expr} {arms : List (Expr × List Node)}
    {otherwise : Option (List Node)} {middle : Chunk} (list : ListBuilt grammars limit nodes inner)
    (turns : middle.stop? grammars = some (.elif next))
    (more : ArmsBuilt grammars limit next arms otherwise used) :
    ArmsBuilt grammars limit condition ((condition, nodes) :: arms) otherwise
      (inner ++ middle :: used) where
  flat named header := by
    have rest := more.flat named fun condition => (Stop.elif condition).chunk
    simp only [List.map_cons] at rest
    simp only [armsChunks, List.cons_append, List.append_assoc, List.map_cons, List.map_append,
      list.flat named, ← Chunk.forget_chunk turns, rest]
  registered := by
    have own := AllRegistered.append.mpr ⟨condition.allRegistered grammars, list.registered⟩
    rw [armElements, List.append_assoc]
    exact AllRegistered.append.mpr ⟨own, more.registered⟩
  depth := by
    rw [armsDepth, Nat.max_assoc]
    exact Nat.max_le.mpr ⟨list.depth, more.depth⟩
  walk := by
    obtain ⟨span, rfl⟩ := Chunk.eq_of_stop?_elif turns
    obtain ⟨_, _, _, _, -, elements, symbols, walk⟩ := more.walk
    refine ⟨nodes, arms, _, _, rfl, ?_, ?_, list.walk.append (walk.turn next span)⟩
    · rw [armElements, List.append_assoc, List.append_assoc, elements]
    · rw [armSymbols, List.append_assoc, List.append_assoc, symbols]

end

theorem readsArms_built {body : BodyReader} (builds : BodyBuilds grammars limit body)
    {opener : Span} {condition : Expr} {chunks : List Chunk} {block : Arms chunks}
    (read : ReadsArms body opener condition chunks block) :
    0 < limit ∧ ∃ used, chunks = used ++ block.rest ∧
      Node.ArmsBuilt grammars (limit - 1) condition block.arms block.otherwise used := by
  induction read with
  | last found =>
      obtain ⟨positive, built⟩ := builds _ _ _ found
      obtain ⟨inner, closer, split, closes, list⟩ := Run.built_stopped built
      refine ⟨positive, inner ++ [closer], ?_, Node.armsBuilt_end list closes⟩
      dsimp only
      rw [split, List.append_assoc]
      rfl
  | otherwise found final =>
      obtain ⟨positive, built⟩ := builds _ _ _ found
      obtain ⟨inner, middle, split, turns, list⟩ := Run.built_stopped built
      obtain ⟨-, built⟩ := builds _ _ _ final
      obtain ⟨after, closer, left, closes, final⟩ := Run.built_stopped built
      refine ⟨positive, inner ++ middle :: (after ++ [closer]), ?_,
        Node.armsBuilt_otherwise list turns final closes⟩
      dsimp only
      rw [split, left, List.append_assoc, List.cons_append, List.append_assoc]
      rfl
  | elif found _ ih =>
      obtain ⟨-, built⟩ := builds _ _ _ found
      obtain ⟨inner, middle, split, turns, list⟩ := Run.built_stopped built
      obtain ⟨positive, used, left, arms⟩ := ih
      refine ⟨positive, inner ++ middle :: used, ?_, Node.armsBuilt_elif list turns arms⟩
      dsimp only
      rw [split, List.append_assoc, List.cons_append, ← left]

/-- A node is built from the first chunk and those that its bodies are read from. -/
theorem readsNode_built {body : BodyReader} (builds : BodyBuilds grammars limit body)
    {chunk : Chunk} {rest after : List Chunk} {node : Node}
    (read : ReadsNode grammars body chunk rest node after) :
    ∃ used, chunk :: rest = used ++ after ∧ node.Built grammars limit used := by
  cases read with
  | text content span => exact ⟨_, rfl, Node.built_text content span⟩
  | output expr span => exact ⟨_, rfl, Node.built_output expr span⟩
  | assign var varSpan value span => exact ⟨_, rfl, Node.built_assign var varSpan value span⟩
  | branch read =>
      obtain ⟨positive, used, left, arms⟩ := readsArms_built builds read
      have deeper : limit - 1 < limit := by omega
      refine ⟨_, ?_, Node.built_branch arms deeper _⟩
      rw [List.cons_append, ← left]
  | loop var varSpan iterable found =>
      obtain ⟨positive, built⟩ := builds _ _ _ found
      obtain ⟨used, closer, left, closes, list⟩ := Run.built_stopped built
      have deeper : limit - 1 < limit := by omega
      refine ⟨_, ?_, Node.built_loop list deeper closes var varSpan iterable _⟩
      rw [left, List.cons_append, List.cons_append, List.append_assoc]
      rfl
  | inline free registered inline nameSpan args span =>
      exact ⟨_, rfl, Node.built_inline free registered inline nameSpan args span⟩
  | block free registered block nameSpan args found =>
      obtain ⟨positive, built⟩ := builds _ _ _ found
      obtain ⟨used, closer, left, closes, list⟩ := Run.built_stopped built
      have deeper : limit - 1 < limit := by omega
      refine ⟨_, ?_,
        Node.built_block free registered block list deeper closes nameSpan args _⟩
      rw [left, List.cons_append, List.cons_append, List.append_assoc]
      rfl

theorem readsNodes_built {body : BodyReader} (builds : BodyBuilds grammars limit body)
    {chunks : List Chunk} {run : Run chunks} (read : ReadsNodes grammars body chunks run) :
    run.Built grammars limit := by
  induction read with
  | ended => exact ⟨[], [], [], rfl, ⟨rfl, rfl⟩, Node.listBuilt_nil⟩
  | @stopped chunk stop stops rest =>
      exact ⟨[], [], chunk :: rest, rfl, ⟨rfl, chunk, rfl, stops, rfl⟩, Node.listBuilt_nil⟩
  | cons head _ shorter ih =>
      obtain ⟨used, split, built⟩ := readsNode_built builds head
      exact Run.built_cons built split ih shorter

theorem readBody_builds (grammars : TagGrammars) (allowance : Nat) :
    BodyBuilds grammars allowance (readBody grammars allowance) := by
  induction allowance with
  | zero => exact fun _ _ _ read => nomatch read
  | succ allowance ih =>
      intro _ _ _ read
      exact ⟨Nat.succ_pos allowance, readsNodes_built ih (readsNodes_of_eq_ok read)⟩

theorem Template.built_of_ofChunks {chunks : List Chunk} {template : Template}
    (nested : ofChunks grammars chunks = .ok template) :
    Node.ListBuilt grammars maxNesting template chunks := by
  unfold ofChunks at nested
  split at nested
  next => cases nested
  next nodes read =>
    cases nested
    obtain ⟨_, used, _, rfl, ⟨rfl, rfl⟩, list⟩ :=
      readsNodes_built (readBody_builds grammars maxNesting) (readsNodes_of_eq_ok read)
    rwa [List.append_nil]
  next => cases nested

theorem Template.built_of_parse {source : String} {template : Template}
    (parsed : parse grammars source = .ok template) :
    ∃ chunks, Chunk.ofSource source = .ok chunks ∧
      Node.ListBuilt grammars maxNesting template chunks := by
  unfold parse at parsed
  cases read : Chunk.ofSource source with
  | error error =>
      rw [read] at parsed
      cases parsed
  | ok chunks =>
      rw [read] at parsed
      exact ⟨chunks, rfl, built_of_ofChunks parsed⟩

end QueryTemplate
