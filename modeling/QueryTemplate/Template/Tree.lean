import QueryTemplate.Chunk.Reader

set_option autoImplicit false

/- From chunks to the tree of a template. `if` and `for` close with their own headers, a block tag
with the tag named after it; blocks nest no deeper than the limit. -/

namespace QueryTemplate

/-- A header that ends the body it stands in. -/
inductive Stop
  | elif (condition : Expr)
  | otherwise
  | endBranch
  | endLoop
  | endTag (name : String)
deriving Repr, Inhabited

namespace Stop

def name : Stop → String
  | elif _ => "elif"
  | otherwise => "else"
  | endBranch => "endif"
  | endLoop => "endfor"
  | endTag name => name

def error (stop : Stop) (span : Span) : ParseError := .unexpectedTag stop.name span

end Stop

/-- A run of nodes, up to the end of the chunks or to a header that ends the body. -/
inductive Run (chunks : List Chunk)
  | ended (nodes : List Node)
  | stopped (nodes : List Node) (stop : Stop) (span : Span) (rest : List Chunk)
      (shorter : rest.length < chunks.length)

namespace Run

/-- Puts a node in front, whose chunks come before those of the run. -/
def cons {chunks rest : List Chunk} (node : Node) (shorter : rest.length < chunks.length) :
    Run rest → Run chunks
  | ended nodes => ended (node :: nodes)
  | stopped nodes stop span after below =>
    stopped (node :: nodes) stop span after (Nat.lt_trans below shorter)

end Run

/-- Reads the body of a block from the chunks after its opening header. -/
abbrev BodyReader := (opener : Span) → (chunks : List Chunk) → Except ParseError (Run chunks)

/-- The arms of an `if` block, its `else` body, and the chunks after its closer. -/
structure Arms (chunks : List Chunk) where
  arms : List (Expr × List Node)
  otherwise : Option (List Node)
  rest : List Chunk
  shorter : rest.length < chunks.length

/-- Reads an `if` block from the body of an arm on. -/
def readArms (body : BodyReader) (opener : Span) (condition : Expr) (chunks : List Chunk) :
    Except ParseError (Arms chunks) :=
  match body opener chunks with
  | .error error => .error error
  | .ok (.ended _) => .error (.unclosedTag "if" opener)
  | .ok (.stopped nodes (.elif next) _ rest shorter) =>
    match readArms body opener next rest with
    | .error error => .error error
    | .ok more => .ok ⟨(condition, nodes) :: more.arms, more.otherwise, more.rest,
        Nat.lt_trans more.shorter shorter⟩
  | .ok (.stopped nodes .otherwise _ rest shorter) =>
    match body opener rest with
    | .error error => .error error
    | .ok (.ended _) => .error (.unclosedTag "if" opener)
    | .ok (.stopped last .endBranch _ after below) =>
      .ok ⟨[(condition, nodes)], some last, after, Nat.lt_trans below shorter⟩
    | .ok (.stopped _ stop span _ _) => .error (stop.error span)
  | .ok (.stopped nodes .endBranch _ rest shorter) =>
    .ok ⟨[(condition, nodes)], none, rest, shorter⟩
  | .ok (.stopped _ stop span _ _) => .error (stop.error span)
termination_by chunks.length

/-- Reads nodes up to the first header that ends the body they stand in. -/
def readNodes (grammars : TagGrammars) (body : BodyReader) :
    (chunks : List Chunk) → Except ParseError (Run chunks)
  | [] => .ok (.ended [])
  | .text content span :: rest =>
    (readNodes grammars body rest).map (Run.cons (.text content span) (Nat.lt_succ_self _))
  | .output expr span :: rest =>
    (readNodes grammars body rest).map (Run.cons (.output expr span) (Nat.lt_succ_self _))
  | .header (.assign var varSpan value) span :: rest =>
    (readNodes grammars body rest).map
      (Run.cons (.assign var varSpan value span) (Nat.lt_succ_self _))
  | .header (.branch condition) span :: rest =>
    match readArms body span condition rest with
    | .error error => .error error
    | .ok block =>
      have shorter := Nat.lt_succ_of_lt block.shorter
      (readNodes grammars body block.rest).map
        (Run.cons (.branch block.arms block.otherwise span) shorter)
  | .header (.loop var varSpan iterable) span :: rest =>
    match body span rest with
    | .error error => .error error
    | .ok (.ended _) => .error (.unclosedTag "for" span)
    | .ok (.stopped nodes .endLoop _ after below) =>
      (readNodes grammars body after).map
        (Run.cons (.loop var varSpan iterable nodes span) (Nat.lt_succ_of_lt below))
    | .ok (.stopped _ stop place _ _) => .error (stop.error place)
  | .header (.tag name nameSpan args) span :: rest =>
    if grammars.closesBlock name then
      .ok (.stopped [] (.endTag name) span rest (Nat.lt_succ_self _))
    else
      match Table.get? grammars name with
      | none => .error (.unknownTag name nameSpan)
      | some grammar =>
        if grammar.block then
          match body span rest with
          | .error error => .error error
          | .ok (.ended _) => .error (.unclosedTag name span)
          | .ok (.stopped nodes (.endTag closer) place after below) =>
            if closer = grammar.endTag then
              (readNodes grammars body after).map
                (Run.cons (.tag name nameSpan args (some nodes) span) (Nat.lt_succ_of_lt below))
            else .error (.unexpectedTag closer place)
          | .ok (.stopped _ stop place _ _) => .error (stop.error place)
        else
          (readNodes grammars body rest).map
            (Run.cons (.tag name nameSpan args none span) (Nat.lt_succ_self _))
  | .header (.elif condition) span :: rest =>
    .ok (.stopped [] (.elif condition) span rest (Nat.lt_succ_self _))
  | .header .otherwise span :: rest => .ok (.stopped [] .otherwise span rest (Nat.lt_succ_self _))
  | .header .endBranch span :: rest => .ok (.stopped [] .endBranch span rest (Nat.lt_succ_self _))
  | .header .endLoop span :: rest => .ok (.stopped [] .endLoop span rest (Nat.lt_succ_self _))
termination_by chunks => chunks.length
decreasing_by
  all_goals simp only [List.length_cons]
  all_goals omega

theorem readNodes_nil (grammars : TagGrammars) (body : BodyReader) :
    readNodes grammars body [] = .ok (.ended []) := by
  rw [readNodes]

/-- Reads bodies inside which no more than `allowance` blocks nest, the body's own included. -/
def readBody (grammars : TagGrammars) : (allowance : Nat) → BodyReader
  | 0, opener, _ => .error (.tooDeep maxNesting opener)
  | allowance + 1, _, chunks => readNodes grammars (readBody grammars allowance) chunks

namespace Template

def ofChunks (grammars : TagGrammars) (chunks : List Chunk) : Except ParseError Template :=
  match readNodes grammars (readBody grammars maxNesting) chunks with
  | .error error => .error error
  | .ok (.ended nodes) => .ok nodes
  | .ok (.stopped _ stop span _ _) => .error (stop.error span)

def parse (grammars : TagGrammars) (source : String) : Except ParseError Template := do
  let chunks ← Chunk.ofSource source
  ofChunks grammars chunks

end Template

end QueryTemplate
