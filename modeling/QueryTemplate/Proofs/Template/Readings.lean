import QueryTemplate.Proofs.Template.Flattening

set_option autoImplicit false

/- How nodes are read from chunks, with one rule for each way in which the reader of a body goes on.
What holds of every tree that is read is proved by these rules. -/

namespace QueryTemplate

/-- The arms of an `if` block are read up to its closer. -/
inductive ReadsArms (body : BodyReader) (opener : Span) :
    Expr → (chunks : List Chunk) → Arms chunks → Prop
  | last {condition : Expr} {chunks rest : List Chunk} {nodes : List Node} {place : Span}
      {shorter : rest.length < chunks.length}
      (found : body opener chunks = .ok (.stopped nodes .endBranch place rest shorter)) :
      ReadsArms body opener condition chunks ⟨[(condition, nodes)], none, rest, shorter⟩
  | otherwise {condition : Expr} {chunks middle rest : List Chunk} {nodes last : List Node}
      {turn place : Span} {shorter : middle.length < chunks.length}
      {below : rest.length < middle.length}
      (found : body opener chunks = .ok (.stopped nodes .otherwise turn middle shorter))
      (final : body opener middle = .ok (.stopped last .endBranch place rest below)) :
      ReadsArms body opener condition chunks
        ⟨[(condition, nodes)], some last, rest, Nat.lt_trans below shorter⟩
  | elif {condition next : Expr} {chunks middle : List Chunk} {nodes : List Node} {turn : Span}
      {shorter : middle.length < chunks.length} {more : Arms middle}
      (found : body opener chunks = .ok (.stopped nodes (.elif next) turn middle shorter))
      (others : ReadsArms body opener next middle more) :
      ReadsArms body opener condition chunks
        ⟨(condition, nodes) :: more.arms, more.otherwise, more.rest,
          Nat.lt_trans more.shorter shorter⟩

/-- A node is read from a chunk and those after it, up to others. -/
inductive ReadsNode (grammars : TagGrammars) (body : BodyReader) :
    Chunk → List Chunk → Node → List Chunk → Prop
  | text (content : String) (span : Span) (rest : List Chunk) :
      ReadsNode grammars body (.text content span) rest (.text content span) rest
  | output (expr : Expr) (span : Span) (rest : List Chunk) :
      ReadsNode grammars body (.output expr span) rest (.output expr span) rest
  | assign (var : String) (varSpan : Span) (value : Expr) (span : Span) (rest : List Chunk) :
      ReadsNode grammars body (.header (.assign var varSpan value) span) rest
        (.assign var varSpan value span) rest
  | branch {condition : Expr} {span : Span} {rest : List Chunk} {block : Arms rest}
      (read : ReadsArms body span condition rest block) :
      ReadsNode grammars body (.header (.branch condition) span) rest
        (.branch block.arms block.otherwise span) block.rest
  | loop (var : String) (varSpan : Span) (iterable : Expr) {span place : Span}
      {rest after : List Chunk} {nodes : List Node} {below : after.length < rest.length}
      (found : body span rest = .ok (.stopped nodes .endLoop place after below)) :
      ReadsNode grammars body (.header (.loop var varSpan iterable) span) rest
        (.loop var varSpan iterable nodes span) after
  | inline {name : String} {grammar : TagGrammar} (free : grammars.closesBlock name = false)
      (registered : Table.get? grammars name = some grammar) (inline : grammar.block = false)
      (nameSpan : Span) (args : List Arg) (span : Span) (rest : List Chunk) :
      ReadsNode grammars body (.header (.tag name nameSpan args) span) rest
        (.tag name nameSpan args none span) rest
  | block {name : String} {grammar : TagGrammar} (free : grammars.closesBlock name = false)
      (registered : Table.get? grammars name = some grammar) (block : grammar.block = true)
      (nameSpan : Span) (args : List Arg) {span place : Span} {rest after : List Chunk}
      {nodes : List Node} {below : after.length < rest.length}
      (found : body span rest = .ok (.stopped nodes (.endTag grammar.endTag) place after below)) :
      ReadsNode grammars body (.header (.tag name nameSpan args) span) rest
        (.tag name nameSpan args (some nodes) span) after

/-- Nodes are read one after the other, up to the end or to a header that ends the body. -/
inductive ReadsNodes (grammars : TagGrammars) (body : BodyReader) :
    (chunks : List Chunk) → Run chunks → Prop
  | ended : ReadsNodes grammars body [] (.ended [])
  | stopped {chunk : Chunk} {stop : Stop} (stops : chunk.stop? grammars = some stop)
      (rest : List Chunk) :
      ReadsNodes grammars body (chunk :: rest)
        (.stopped [] stop chunk.span rest (Nat.lt_succ_self _))
  | cons {chunk : Chunk} {rest after : List Chunk} {node : Node} {run : Run after}
      (head : ReadsNode grammars body chunk rest node after)
      (tail : ReadsNodes grammars body after run) (shorter : after.length < (chunk :: rest).length) :
      ReadsNodes grammars body (chunk :: rest) (run.cons node shorter)

/-- A body is not read up to a header that closes it. -/
inductive FailsBody (body : BodyReader) (opener : Span) (name : String) (closes : Stop → Prop)
    (chunks : List Chunk) : ParseError → Prop
  | failed {error : ParseError} (found : body opener chunks = .error error) :
      FailsBody body opener name closes chunks error
  | ended {nodes : List Node} (found : body opener chunks = .ok (.ended nodes)) :
      FailsBody body opener name closes chunks (.unclosedTag name opener)
  | unfit {nodes : List Node} {stop : Stop} {place : Span} {rest : List Chunk}
      {shorter : rest.length < chunks.length}
      (found : body opener chunks = .ok (.stopped nodes stop place rest shorter))
      (unfit : ¬ closes stop) : FailsBody body opener name closes chunks (stop.error place)

/-- Headers that end an arm of an `if` block. -/
def Stop.endsArm : Stop → Prop
  | elif _ => True
  | otherwise => True
  | endBranch => True
  | _ => False

/-- The arms of an `if` block are not read up to its closer. -/
inductive FailsArms (body : BodyReader) (opener : Span) : List Chunk → ParseError → Prop
  | arm {chunks : List Chunk} {error : ParseError}
      (fails : FailsBody body opener "if" Stop.endsArm chunks error) :
      FailsArms body opener chunks error
  | otherwise {chunks middle : List Chunk} {nodes : List Node} {turn : Span}
      {shorter : middle.length < chunks.length} {error : ParseError}
      (found : body opener chunks = .ok (.stopped nodes .otherwise turn middle shorter))
      (fails : FailsBody body opener "if" (· = .endBranch) middle error) :
      FailsArms body opener chunks error
  | elif {next : Expr} {chunks middle : List Chunk} {nodes : List Node} {turn : Span}
      {shorter : middle.length < chunks.length} {error : ParseError}
      (found : body opener chunks = .ok (.stopped nodes (.elif next) turn middle shorter))
      (others : FailsArms body opener middle error) : FailsArms body opener chunks error

/-- No node is read from a chunk and those after it. -/
inductive FailsNode (grammars : TagGrammars) (body : BodyReader) :
    Chunk → List Chunk → ParseError → Prop
  | branch (condition : Expr) {span : Span} {rest : List Chunk} {error : ParseError}
      (fails : FailsArms body span rest error) :
      FailsNode grammars body (.header (.branch condition) span) rest error
  | loop (var : String) (varSpan : Span) (iterable : Expr) {span : Span} {rest : List Chunk}
      {error : ParseError} (fails : FailsBody body span "for" (· = .endLoop) rest error) :
      FailsNode grammars body (.header (.loop var varSpan iterable) span) rest error
  | unknown {name : String} (free : grammars.closesBlock name = false)
      (absent : Table.get? grammars name = none) (nameSpan : Span) (args : List Arg) (span : Span)
      (rest : List Chunk) :
      FailsNode grammars body (.header (.tag name nameSpan args) span) rest
        (.unknownTag name nameSpan)
  | block {name : String} {grammar : TagGrammar} (free : grammars.closesBlock name = false)
      (registered : Table.get? grammars name = some grammar) (block : grammar.block = true)
      (nameSpan : Span) (args : List Arg) {span : Span} {rest : List Chunk} {error : ParseError}
      (fails : FailsBody body span name (· = .endTag grammar.endTag) rest error) :
      FailsNode grammars body (.header (.tag name nameSpan args) span) rest error

theorem readArms_cases (body : BodyReader) (opener : Span) (condition : Expr)
    (chunks : List Chunk) :
    (∃ block, ReadsArms body opener condition chunks block ∧
        readArms body opener condition chunks = .ok block) ∨
      ∃ error, FailsArms body opener chunks error ∧
        readArms body opener condition chunks = .error error := by
  induction size : chunks.length using Nat.strongRecOn generalizing chunks condition with
  | ind size ih =>
      subst size
      rw [readArms]
      cases found : body opener chunks with
      | error error => exact Or.inr ⟨error, .arm (.failed found), rfl⟩
      | ok run =>
          cases run with
          | ended nodes => exact Or.inr ⟨_, .arm (.ended found), rfl⟩
          | stopped nodes stop turn middle shorter =>
              cases stop with
              | elif next =>
                  rcases ih middle.length shorter next middle rfl with
                    ⟨more, reads, again⟩ | ⟨error, fails, again⟩
                  · exact Or.inl ⟨_, .elif found reads, by simp only [again]⟩
                  · exact Or.inr ⟨error, .elif found fails, by simp only [again]⟩
              | otherwise =>
                  cases final : body opener middle with
                  | error error =>
                      exact Or.inr ⟨error, .otherwise found (.failed final), by simp only [final]⟩
                  | ok run =>
                      cases run with
                      | ended last =>
                          exact Or.inr ⟨_, .otherwise found (.ended final), by simp only [final]⟩
                      | stopped last stop place rest below =>
                          cases stop with
                          | endBranch =>
                              exact Or.inl ⟨_, .otherwise found final, by simp only [final]⟩
                          | _ =>
                              exact Or.inr ⟨_, .otherwise found (.unfit final (by simp)),
                                by simp only [final]⟩
              | endBranch => exact Or.inl ⟨_, .last found, rfl⟩
              | endLoop => exact Or.inr ⟨_, .arm (.unfit found id), rfl⟩
              | endTag name => exact Or.inr ⟨_, .arm (.unfit found id), rfl⟩

variable {grammars : TagGrammars} {body : BodyReader}

/-- Before the end of the chunks the reader stops, or reads a node and goes on after it, or fails. -/
inductive NextNode (grammars : TagGrammars) (body : BodyReader) (chunk : Chunk)
    (rest : List Chunk) : Prop
  | stops {stop : Stop} (stops : chunk.stop? grammars = some stop)
      (same : readNodes grammars body (chunk :: rest) =
        .ok (.stopped [] stop chunk.span rest (Nat.lt_succ_self _)))
  | reads {node : Node} {after : List Chunk} (shorter : after.length < (chunk :: rest).length)
      (reads : ReadsNode grammars body chunk rest node after)
      (same : readNodes grammars body (chunk :: rest) =
        (readNodes grammars body after).map (Run.cons node shorter))
  | fails {error : ParseError} (fails : FailsNode grammars body chunk rest error)
      (same : readNodes grammars body (chunk :: rest) = .error error)

namespace NextNode

variable {rest : List Chunk}

theorem branch (condition : Expr) (span : Span) :
    NextNode grammars body (.header (.branch condition) span) rest := by
  rcases readArms_cases body span condition rest with ⟨block, read, same⟩ | ⟨error, fails, same⟩
  · refine .reads (Nat.lt_succ_of_lt block.shorter) (.branch read) ?_
    rw [readNodes, same]
  · refine .fails (.branch condition fails) ?_
    rw [readNodes, same]

theorem loop (var : String) (varSpan : Span) (iterable : Expr) (span : Span) :
    NextNode grammars body (.header (.loop var varSpan iterable) span) rest := by
  cases found : body span rest with
  | error error =>
      exact .fails (.loop var varSpan iterable (.failed found)) (by rw [readNodes, found])
  | ok run =>
      cases run with
      | ended nodes =>
          exact .fails (.loop var varSpan iterable (.ended found)) (by rw [readNodes, found])
      | stopped nodes stop place after below =>
          cases stop with
          | endLoop =>
              exact .reads (Nat.lt_succ_of_lt below) (.loop var varSpan iterable found)
                (by rw [readNodes, found])
          | _ =>
              exact .fails (.loop var varSpan iterable (.unfit found (by simp)))
                (by rw [readNodes, found])

theorem block {name : String} {grammar : TagGrammar} (free : grammars.closesBlock name = false)
    (registered : Table.get? grammars name = some grammar) (block : grammar.block = true)
    (nameSpan : Span) (args : List Arg) (span : Span) :
    NextNode grammars body (.header (.tag name nameSpan args) span) rest := by
  cases found : body span rest with
  | error error =>
      refine .fails (.block free registered block nameSpan args (.failed found)) ?_
      simp only [readNodes, free, registered, block, found, Bool.false_eq_true, ↓reduceIte]
  | ok run =>
      cases run with
      | ended nodes =>
          refine .fails (.block free registered block nameSpan args (.ended found)) ?_
          simp only [readNodes, free, registered, block, found, Bool.false_eq_true, ↓reduceIte]
      | stopped nodes stop place after below =>
          by_cases same : stop = .endTag grammar.endTag
          · subst same
            refine .reads (Nat.lt_succ_of_lt below)
              (.block free registered block nameSpan args found) ?_
            simp only [readNodes, free, registered, block, found, Bool.false_eq_true, ↓reduceIte]
          · refine .fails (.block free registered block nameSpan args (.unfit found same)) ?_
            simp only [readNodes, free, registered, block, found, Bool.false_eq_true, ↓reduceIte]
            cases stop with
            | endTag closer => exact if_neg fun equal => same (congrArg Stop.endTag equal)
            | _ => rfl

theorem tag (name : String) (nameSpan : Span) (args : List Arg) (span : Span) :
    NextNode grammars body (.header (.tag name nameSpan args) span) rest := by
  cases closes : grammars.closesBlock name with
  | true =>
      have stops : (Chunk.header (.tag name nameSpan args) span).stop? grammars =
          some (.endTag name) := if_pos closes
      refine .stops stops ?_
      rw [readNodes, if_pos closes]
      rfl
  | false =>
      cases registered : Table.get? grammars name with
      | none =>
          refine .fails (.unknown closes registered nameSpan args span rest) ?_
          rw [readNodes, closes, registered]
          rfl
      | some grammar =>
          cases shape : grammar.block with
          | true => exact block closes registered shape nameSpan args span
          | false =>
              refine .reads (Nat.lt_succ_self _)
                (.inline closes registered shape nameSpan args span rest) ?_
              rw [readNodes, closes, registered]
              simp only [shape, Bool.false_eq_true, ↓reduceIte]

end NextNode

theorem nextNode (grammars : TagGrammars) (body : BodyReader) (chunk : Chunk)
    (rest : List Chunk) : NextNode grammars body chunk rest := by
  cases chunk with
  | text content span =>
      exact .reads (Nat.lt_succ_self _) (.text content span rest) (by rw [readNodes])
  | output expr span =>
      exact .reads (Nat.lt_succ_self _) (.output expr span rest) (by rw [readNodes])
  | header content span =>
      cases content with
      | assign var varSpan value =>
          exact .reads (Nat.lt_succ_self _) (.assign var varSpan value span rest)
            (by rw [readNodes])
      | branch condition => exact .branch condition span
      | loop var varSpan iterable => exact .loop var varSpan iterable span
      | tag name nameSpan args => exact .tag name nameSpan args span
      | elif | otherwise | endBranch | endLoop => exact .stops rfl (by rw [readNodes]; rfl)

theorem readsNodes_of_eq_ok {chunks : List Chunk} {run : Run chunks}
    (read : readNodes grammars body chunks = .ok run) : ReadsNodes grammars body chunks run := by
  induction size : chunks.length using Nat.strongRecOn generalizing chunks with
  | ind size ih =>
      subst size
      cases chunks with
      | nil =>
          rw [readNodes_nil] at read
          cases read
          exact .ended
      | cons chunk rest =>
          cases nextNode grammars body chunk rest with
          | stops stops same =>
              cases same.symm.trans read
              exact .stopped stops rest
          | @reads node after shorter reads same =>
              rw [same] at read
              cases again : readNodes grammars body after with
              | error error =>
                  rw [again] at read
                  cases read
              | ok inner =>
                  rw [again] at read
                  cases read
                  exact .cons reads (ih after.length shorter again rfl) shorter
          | fails _ same => cases same.symm.trans read

end QueryTemplate
