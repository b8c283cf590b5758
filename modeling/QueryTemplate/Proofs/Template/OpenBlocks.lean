import QueryTemplate.Proofs.Template.Flattening

set_option autoImplicit false

/- A scan of the chunks of a template from left to right, with a stack of the blocks that are open.
It says of each chunk whether it may stand where it does, and builds no tree. -/

namespace QueryTemplate

/-- A block that is open. Of an `if` block the scan knows whether it has met the `else`. -/
inductive OpenBlock
  | branch (opener : Span) (otherwise : Bool)
  | loop (opener : Span)
  | tag (name : String) (opener : Span)
deriving DecidableEq, Repr

namespace OpenBlock

def name : OpenBlock → String
  | branch _ _ => "if"
  | loop _ => "for"
  | tag name _ => name

def opener : OpenBlock → Span
  | branch opener _ => opener
  | loop opener => opener
  | tag _ opener => opener

def unclosed (block : OpenBlock) : ParseError := .unclosedTag block.name block.opener

/-- What becomes of the innermost block when it meets a header that fits: it stays open or
closes. -/
def meet? : OpenBlock → Stop → Option (Option OpenBlock)
  | branch opener false, .elif _ => some (some (branch opener false))
  | branch opener false, .otherwise => some (some (branch opener true))
  | branch _ _, .endBranch => some none
  | loop _, .endLoop => some none
  | tag name _, .endTag closer => if closer = TagGrammar.endName name then some none else none
  | _, _ => none

/-- Opens a block inside the blocks that are open. -/
def enter (block : OpenBlock) (blocks : List OpenBlock) : Except ParseError (List OpenBlock) :=
  if blocks.length < maxNesting then .ok (block :: blocks)
  else .error (.tooDeep maxNesting block.opener)

/-- Meets a header that ends a body. -/
def leave (stop : Stop) (span : Span) : List OpenBlock → Except ParseError (List OpenBlock)
  | [] => .error (stop.error span)
  | block :: outer =>
    match block.meet? stop with
    | some left => .ok (left.toList ++ outer)
    | none => .error (stop.error span)

end OpenBlock

namespace Chunk

/-- The block that a chunk opens, if it opens one. A tag has to be registered. -/
def opens? (grammars : TagGrammars) : Chunk → Except ParseError (Option OpenBlock)
  | .header (.branch _) span => .ok (some (.branch span false))
  | .header (.loop ..) span => .ok (some (.loop span))
  | .header (.tag name nameSpan _) span =>
    match Table.get? grammars name with
    | none => .error (.unknownTag name nameSpan)
    | some grammar => .ok (if grammar.block then some (.tag name span) else none)
  | _ => .ok none

/-- One chunk of the scan, and the blocks that are open after it. -/
def scan (grammars : TagGrammars) (blocks : List OpenBlock) (chunk : Chunk) :
    Except ParseError (List OpenBlock) :=
  match chunk.stop? grammars with
  | some stop => OpenBlock.leave stop chunk.span blocks
  | none =>
    match chunk.opens? grammars with
    | .error error => .error error
    | .ok none => .ok blocks
    | .ok (some block) => block.enter blocks

def scanAll (grammars : TagGrammars) (blocks : List OpenBlock) (chunks : List Chunk) :
    Except ParseError (List OpenBlock) :=
  chunks.foldlM (scan grammars) blocks

/-- What a scan has against the chunks: the error of the first one at which it is stuck, or at their
end that the innermost block is never closed. -/
def fault? (grammars : TagGrammars) (blocks : List OpenBlock) (chunks : List Chunk) :
    Option ParseError :=
  match scanAll grammars blocks chunks with
  | .error error => some error
  | .ok [] => none
  | .ok (block :: _) => some block.unclosed

/-- Why a scan is stuck at a chunk. -/
inductive Stuck (grammars : TagGrammars) (blocks : List OpenBlock) : Chunk → ParseError → Prop
  /-- The header does not fit the innermost block, or no block is open. -/
  | unfit {chunk : Chunk} {stop : Stop} (stops : chunk.stop? grammars = some stop)
      (unfit : ∀ block ∈ blocks.head?, block.meet? stop = none) :
      Stuck grammars blocks chunk (.unexpectedTag stop.name chunk.span)
  | unknown {name : String} {nameSpan span : Span} {args : List Arg}
      (free : grammars.closesBlock name = false) (unknown : Table.get? grammars name = none) :
      Stuck grammars blocks (.header (.tag name nameSpan args) span) (.unknownTag name nameSpan)
  | deep {chunk : Chunk} {block : OpenBlock} (free : chunk.stop? grammars = none)
      (opens : chunk.opens? grammars = .ok (some block)) (full : maxNesting ≤ blocks.length) :
      Stuck grammars blocks chunk (.tooDeep maxNesting chunk.span)

variable {grammars : TagGrammars} {blocks middle : List OpenBlock} {chunk : Chunk}
  {used rest : List Chunk} {error : ParseError}

theorem opener_of_opens {block : OpenBlock} (opens : chunk.opens? grammars = .ok (some block)) :
    block.opener = chunk.span := by
  unfold opens? at opens
  split at opens
  · cases opens
    rfl
  · cases opens
    rfl
  · split at opens
    · cases opens
    · rw [Except.ok.injEq] at opens
      split at opens
      · cases opens
        rfl
      · cases opens
  · cases opens

theorem opens?_eq_error (fails : chunk.opens? grammars = .error error) :
    ∃ name nameSpan args span, chunk = .header (.tag name nameSpan args) span ∧
      Table.get? grammars name = none ∧ error = .unknownTag name nameSpan := by
  unfold opens? at fails
  split at fails
  · cases fails
  · cases fails
  next name nameSpan args span =>
    split at fails
    next unknown =>
      cases fails
      exact ⟨name, nameSpan, args, span, rfl, unknown, rfl⟩
    next => cases fails
  · cases fails

theorem scan_eq_error :
    chunk.scan grammars blocks = .error error ↔ chunk.Stuck grammars blocks error := by
  unfold scan
  constructor
  · intro fails
    split at fails
    next stop stops =>
      cases blocks with
      | nil =>
          cases fails
          exact .unfit stops fun _ within => nomatch within
      | cons block outer =>
          rw [OpenBlock.leave] at fails
          split at fails
          next => cases fails
          next unfit =>
            cases fails
            refine .unfit stops fun other within => ?_
            cases within
            exact unfit
    next free =>
      split at fails
      next opens =>
        cases fails
        obtain ⟨name, nameSpan, args, span, rfl, unknown, rfl⟩ := opens?_eq_error opens
        refine .unknown ?_ unknown
        simpa [stop?] using free
      next => cases fails
      next block opens =>
        rw [OpenBlock.enter] at fails
        split at fails
        next => cases fails
        next full =>
          cases fails
          rw [opener_of_opens opens]
          exact .deep free opens (Nat.le_of_not_lt full)
  · intro stuck
    cases stuck with
    | unfit stops unfit =>
        simp only [stops]
        cases blocks with
        | nil => rfl
        | cons block outer =>
            rw [OpenBlock.leave, unfit block rfl]
            rfl
    | unknown free unknown => simp [stop?, opens?, free, unknown]
    | deep free opens full =>
        simp only [free, opens]
        rw [OpenBlock.enter, if_neg (Nat.not_lt.mpr full), opener_of_opens opens]

theorem scan_of_stop {stop : Stop} (stops : chunk.stop? grammars = some stop)
    (blocks : List OpenBlock) :
    chunk.scan grammars blocks = OpenBlock.leave stop chunk.span blocks := by
  unfold scan
  simp only [stops]

theorem scanAll_append (scanned : scanAll grammars blocks used = .ok middle) (rest : List Chunk) :
    scanAll grammars blocks (used ++ rest) = scanAll grammars middle rest := by
  rw [scanAll, List.foldlM_append]
  change (scanAll grammars blocks used >>= fun blocks => scanAll grammars blocks rest) = _
  rw [scanned]
  rfl

theorem scanAll_cons (scanned : chunk.scan grammars blocks = .ok middle) (rest : List Chunk) :
    scanAll grammars blocks (chunk :: rest) = scanAll grammars middle rest := by
  rw [scanAll, List.foldlM_cons, scanned]
  rfl

theorem scanAll_singleton (scanned : chunk.scan grammars blocks = .ok middle) :
    scanAll grammars blocks [chunk] = .ok middle := scanAll_cons scanned []

theorem scanAll_stuck (stuck : chunk.scan grammars blocks = .error error) (rest : List Chunk) :
    scanAll grammars blocks (chunk :: rest) = .error error := by
  rw [scanAll, List.foldlM_cons, stuck]
  rfl

theorem fault?_append (scanned : scanAll grammars blocks used = .ok middle) (rest : List Chunk) :
    fault? grammars blocks (used ++ rest) = fault? grammars middle rest := by
  rw [fault?, scanAll_append scanned, fault?]

theorem fault?_cons (scanned : chunk.scan grammars blocks = .ok middle) (rest : List Chunk) :
    fault? grammars blocks (chunk :: rest) = fault? grammars middle rest := by
  rw [fault?, scanAll_cons scanned, fault?]

theorem fault?_stuck (stuck : chunk.scan grammars blocks = .error error) (rest : List Chunk) :
    fault? grammars blocks (chunk :: rest) = some error := by
  rw [fault?, scanAll_stuck stuck]

/-- A scan that is stuck has a first chunk at which it is. -/
theorem scanAll_eq_error {chunks : List Chunk} :
    scanAll grammars blocks chunks = .error error ↔
      ∃ before chunk after reached, chunks = before ++ chunk :: after ∧
        scanAll grammars blocks before = .ok reached ∧ chunk.Stuck grammars reached error := by
  constructor
  · intro stuck
    induction chunks generalizing blocks with
    | nil => cases stuck
    | cons chunk rest ih =>
        cases scanned : chunk.scan grammars blocks with
        | error other =>
            rw [scanAll_stuck scanned] at stuck
            cases stuck
            exact ⟨[], chunk, rest, blocks, rfl, rfl, scan_eq_error.mp scanned⟩
        | ok middle =>
            rw [scanAll_cons scanned] at stuck
            obtain ⟨before, place, after, inner, rfl, reached, stops⟩ := ih stuck
            exact ⟨chunk :: before, place, after, inner, rfl,
              (scanAll_cons scanned before).trans reached, stops⟩
  · rintro ⟨before, chunk, after, inner, rfl, reached, stuck⟩
    rw [scanAll_append reached, scanAll_stuck (scan_eq_error.mpr stuck)]

theorem fault?_eq_none {chunks : List Chunk} :
    fault? grammars blocks chunks = none ↔ scanAll grammars blocks chunks = .ok [] := by
  rw [fault?]
  rcases scanned : scanAll grammars blocks chunks with _ | _ | _ <;> simp

theorem fault?_eq_some {chunks : List Chunk} :
    fault? grammars blocks chunks = some error ↔
      (∃ before chunk after reached, chunks = before ++ chunk :: after ∧
        scanAll grammars blocks before = .ok reached ∧ chunk.Stuck grammars reached error) ∨
      ∃ block outer, scanAll grammars blocks chunks = .ok (block :: outer) ∧
        error = .unclosedTag block.name block.opener := by
  rw [← scanAll_eq_error, fault?]
  rcases scanned : scanAll grammars blocks chunks with other | _ | ⟨block, outer⟩
  · simp
  · simp
  · simp only [OpenBlock.unclosed, Except.ok.injEq, List.cons.injEq, Option.some.injEq,
      reduceCtorEq, false_or]
    constructor
    · rintro rfl
      exact ⟨block, outer, ⟨rfl, rfl⟩, rfl⟩
    · rintro ⟨_, _, ⟨rfl, rfl⟩, rfl⟩
      rfl

end Chunk

end QueryTemplate
