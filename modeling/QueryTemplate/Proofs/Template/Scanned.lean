import QueryTemplate.Proofs.Template.OpenBlocks
import QueryTemplate.Proofs.Template.Readings

set_option autoImplicit false

/- The tree of a template is built just when the scan of its chunks gets to the end and leaves no
block open, and where it is not built the error is that of the scan. -/

namespace QueryTemplate

/-- A result, and what a scan has against the same chunks. -/
def Agrees {α : Type} (good : α → Prop) (fault? : Option ParseError) : Except ParseError α → Prop
  | .ok result => good result
  | .error error => fault? = some error

/-- The nodes of a run leave the blocks open that are open before them. -/
def Run.Scans (grammars : TagGrammars) (blocks : List OpenBlock) {chunks : List Chunk} :
    Run chunks → Prop
  | ended _ => Chunk.scanAll grammars blocks chunks = .ok blocks
  | stopped _ stop span rest _ =>
    ∃ used chunk, chunks = used ++ chunk :: rest ∧ Chunk.scanAll grammars blocks used = .ok blocks ∧
      chunk.stop? grammars = some stop ∧ chunk.span = span

/-- What a scan has against a block and the chunks after its opening header. -/
def OpenBlock.fault? (grammars : TagGrammars) (block : OpenBlock) (outer : List OpenBlock)
    (chunks : List Chunk) : Option ParseError :=
  match block.enter outer with
  | .error error => some error
  | .ok blocks => Chunk.fault? grammars blocks chunks

/-- The bodies of blocks that stand in these blocks are read as they are scanned. -/
def BodyScans (grammars : TagGrammars) (outer : List OpenBlock) (body : BodyReader) : Prop :=
  ∀ (block : OpenBlock) (chunks : List Chunk),
    Agrees (fun run => outer.length < maxNesting ∧ run.Scans grammars (block :: outer))
      (block.fault? grammars outer chunks) (body block.opener chunks)

variable {grammars : TagGrammars} {outer : List OpenBlock} {block : OpenBlock}

theorem OpenBlock.enter_of_lt (shallow : outer.length < maxNesting) (block : OpenBlock) :
    block.enter outer = .ok (block :: outer) := if_pos shallow

theorem OpenBlock.fault?_of_lt (shallow : outer.length < maxNesting) (block : OpenBlock)
    (chunks : List Chunk) :
    block.fault? grammars outer chunks = Chunk.fault? grammars (block :: outer) chunks := by
  rw [fault?, enter_of_lt shallow]

/-- A body at the end of the chunks. -/
theorem OpenBlock.fault?_of_ended {chunks : List Chunk} {nodes : List Node}
    (shallow : outer.length < maxNesting)
    (scans : (Run.ended nodes : Run chunks).Scans grammars (block :: outer)) :
    block.fault? grammars outer chunks = some block.unclosed := by
  have scanned : Chunk.scanAll grammars (block :: outer) chunks = .ok (block :: outer) := scans
  rw [fault?_of_lt shallow, Chunk.fault?, scanned]

section

variable {chunks rest : List Chunk} {nodes : List Node} {stop : Stop} {span : Span}
  {shorter : rest.length < chunks.length}

/-- A body that a header ends which does not fit the block. -/
theorem OpenBlock.fault?_of_unfit (shallow : outer.length < maxNesting)
    (scans : (Run.stopped nodes stop span rest shorter).Scans grammars (block :: outer))
    (unfit : block.meet? stop = none) :
    block.fault? grammars outer chunks = some (stop.error span) := by
  obtain ⟨used, chunk, rfl, scanned, stops, rfl⟩ := scans
  have stuck : chunk.scan grammars (block :: outer) = .error (stop.error chunk.span) := by
    rw [Chunk.scan_of_stop stops, leave, unfit]
  rw [fault?_of_lt shallow, Chunk.fault?_append scanned, Chunk.fault?_stuck stuck]

/-- A body that a header ends which fits the block. -/
theorem OpenBlock.scanned_of_fit {left : Option OpenBlock}
    (scans : (Run.stopped nodes stop span rest shorter).Scans grammars (block :: outer))
    (fits : block.meet? stop = some left) :
    ∃ used, chunks = used ++ rest ∧
      Chunk.scanAll grammars (block :: outer) used = .ok (left.toList ++ outer) := by
  obtain ⟨used, chunk, rfl, scanned, stops, rfl⟩ := scans
  have met : chunk.scan grammars (block :: outer) = .ok (left.toList ++ outer) := by
    rw [Chunk.scan_of_stop stops, leave, fits]
  refine ⟨used ++ [chunk], by rw [List.append_assoc]; rfl, ?_⟩
  rw [Chunk.scanAll_append scanned, Chunk.scanAll_singleton met]

end

/-- The arms of an `if` block, from the body of one on, close the block. -/
def Arms.Scans (grammars : TagGrammars) (outer : List OpenBlock) (opener : Span)
    {chunks : List Chunk} (arms : Arms chunks) : Prop :=
  outer.length < maxNesting ∧ ∃ used, chunks = used ++ arms.rest ∧
    Chunk.scanAll grammars (.branch opener false :: outer) used = .ok outer

/-- The chunks of a body up to a header after which the block is still open. -/
theorem OpenBlock.fault?_of_kept {chunks used rest : List Chunk} {next : OpenBlock}
    (shallow : outer.length < maxNesting) (split : chunks = used ++ rest)
    (scanned : Chunk.scanAll grammars (block :: outer) used = .ok (next :: outer)) :
    block.fault? grammars outer chunks = next.fault? grammars outer rest := by
  rw [fault?_of_lt shallow, fault?_of_lt shallow, split, Chunk.fault?_append scanned]

section

variable {body : BodyReader}

/-- A body that is read up to a header that fits its block. -/
theorem BodyScans.scanned (scans : BodyScans grammars outer body) (block : OpenBlock)
    {chunks rest : List Chunk} {nodes : List Node} {stop : Stop} {place : Span}
    {shorter : rest.length < chunks.length} {left : Option OpenBlock}
    (found : body block.opener chunks = .ok (.stopped nodes stop place rest shorter))
    (fits : block.meet? stop = some left) :
    outer.length < maxNesting ∧ ∃ used, chunks = used ++ rest ∧
      Chunk.scanAll grammars (block :: outer) used = .ok (left.toList ++ outer) := by
  have agrees := scans block chunks
  rw [found] at agrees
  exact ⟨agrees.1, OpenBlock.scanned_of_fit agrees.2 fits⟩

/-- A body that is not closed fails where the scan of it does. -/
theorem failsBody_fault (scans : BodyScans grammars outer body) (block : OpenBlock)
    {closes : Stop → Prop} (unfit : ∀ stop, ¬ closes stop → block.meet? stop = none)
    {chunks : List Chunk} {error : ParseError}
    (fails : FailsBody body block.opener block.name closes chunks error) :
    block.fault? grammars outer chunks = some error := by
  have agrees := scans block chunks
  cases fails with
  | failed found =>
      rw [found] at agrees
      exact agrees
  | ended found =>
      rw [found] at agrees
      exact OpenBlock.fault?_of_ended agrees.1 agrees.2
  | unfit found misfit =>
      rw [found] at agrees
      exact OpenBlock.fault?_of_unfit agrees.1 agrees.2 (unfit _ misfit)

theorem readsArms_scans (scans : BodyScans grammars outer body) {opener : Span}
    {condition : Expr} {chunks : List Chunk} {arms : Arms chunks}
    (read : ReadsArms body opener condition chunks arms) : arms.Scans grammars outer opener := by
  induction read with
  | last found =>
      obtain ⟨shallow, used, split, closed⟩ := scans.scanned (.branch opener false) found rfl
      exact ⟨shallow, used, split, closed⟩
  | otherwise found final =>
      obtain ⟨shallow, used, split, scanned⟩ := scans.scanned (.branch opener false) found rfl
      obtain ⟨-, others, left, closed⟩ := scans.scanned (.branch opener true) final rfl
      refine ⟨shallow, used ++ others, ?_, (Chunk.scanAll_append scanned _).trans closed⟩
      rw [List.append_assoc, ← left]
      exact split
  | elif found _ ih =>
      obtain ⟨shallow, used, split, scanned⟩ := scans.scanned (.branch opener false) found rfl
      obtain ⟨-, others, left, closed⟩ := ih
      refine ⟨shallow, used ++ others, ?_, (Chunk.scanAll_append scanned _).trans closed⟩
      rw [List.append_assoc, ← left]
      exact split

theorem failsArms_fault (scans : BodyScans grammars outer body) {opener : Span}
    {chunks : List Chunk} {error : ParseError} (fails : FailsArms body opener chunks error) :
    (OpenBlock.branch opener false).fault? grammars outer chunks = some error := by
  induction fails with
  | arm fails =>
      refine failsBody_fault scans (.branch opener false) (fun stop unfit => ?_) fails
      cases stop with
      | elif | otherwise | endBranch => exact absurd trivial unfit
      | _ => rfl
  | otherwise found fails =>
      obtain ⟨shallow, used, split, scanned⟩ := scans.scanned (.branch opener false) found rfl
      rw [OpenBlock.fault?_of_kept shallow split scanned]
      refine failsBody_fault scans (.branch opener true) (fun stop unfit => ?_) fails
      cases stop with
      | endBranch => exact absurd rfl unfit
      | _ => rfl
  | elif found _ ih =>
      obtain ⟨shallow, used, split, scanned⟩ := scans.scanned (.branch opener false) found rfl
      rw [OpenBlock.fault?_of_kept shallow split scanned]
      exact ih

end

/-- A node in front of a run. -/
theorem Run.agrees_cons {blocks : List OpenBlock} {used rest chunks : List Chunk} {node : Node}
    {read : Except ParseError (Run rest)} (split : chunks = used ++ rest)
    (scanned : Chunk.scanAll grammars blocks used = .ok blocks)
    (agrees : Agrees (Run.Scans grammars blocks) (Chunk.fault? grammars blocks rest) read)
    (shorter : rest.length < chunks.length) :
    Agrees (Run.Scans grammars blocks) (Chunk.fault? grammars blocks chunks)
      (read.map (Run.cons node shorter)) := by
  subst split
  rw [Chunk.fault?_append scanned]
  cases read with
  | error error => exact agrees
  | ok run =>
      cases run with
      | ended nodes => exact (Chunk.scanAll_append scanned rest).trans agrees
      | stopped nodes stop span after below =>
          obtain ⟨others, chunk, left, reached, stops, place⟩ := agrees
          refine ⟨used ++ others, chunk, ?_, ?_, stops, place⟩
          · rw [List.append_assoc, ← left]
          · exact (Chunk.scanAll_append scanned others).trans reached

/-- A chunk that opens a block. -/
theorem OpenBlock.fault?_cons (block : OpenBlock) {chunk : Chunk}
    (opens : chunk.scan grammars outer = block.enter outer) (rest : List Chunk) :
    Chunk.fault? grammars outer (chunk :: rest) = block.fault? grammars outer rest := by
  rw [fault?]
  cases entered : block.enter outer with
  | error error => exact Chunk.fault?_stuck (opens.trans entered) rest
  | ok blocks => exact Chunk.fault?_cons (opens.trans entered) rest

/-- The chunks of a block, from the one that opens it to the one that closes it. -/
theorem OpenBlock.scanned_block (block : OpenBlock) {chunk : Chunk} {used rest after : List Chunk}
    (opens : chunk.scan grammars outer = block.enter outer) (shallow : outer.length < maxNesting)
    (split : rest = used ++ after)
    (closed : Chunk.scanAll grammars (block :: outer) used = .ok outer) :
    ∃ used, chunk :: rest = used ++ after ∧ Chunk.scanAll grammars outer used = .ok outer := by
  refine ⟨chunk :: used, by rw [List.cons_append, ← split], ?_⟩
  rw [Chunk.scanAll_cons (opens.trans (OpenBlock.enter_of_lt shallow block))]
  exact closed

section

variable {name : String} {grammar : TagGrammar} {span : Span}

theorem Chunk.scan_block (free : grammars.closesBlock name = false)
    (found : Table.get? grammars name = some grammar) (shape : grammar.block = true)
    (nameSpan : Span) (args : List Arg) (span : Span) (outer : List OpenBlock) :
    (Chunk.header (.tag name nameSpan args) span).scan grammars outer =
      (OpenBlock.tag name span).enter outer := by
  simp [Chunk.scan, Chunk.opens?, Chunk.stop?, free, found, shape]

/-- Only where the tag is registered under its own name does its closer have the name that the scan
waits for. -/
theorem OpenBlock.meet?_endTag (named : grammars.Named)
    (found : Table.get? grammars name = some grammar) :
    (OpenBlock.tag name span).meet? (.endTag grammar.endTag) = some none := by
  rw [TagGrammar.endTag, named name grammar found]
  exact if_pos rfl

theorem OpenBlock.meet?_of_ne (named : grammars.Named)
    (found : Table.get? grammars name = some grammar) {stop : Stop}
    (unfit : stop ≠ .endTag grammar.endTag) : (OpenBlock.tag name span).meet? stop = none := by
  rw [TagGrammar.endTag, named name grammar found] at unfit
  cases stop with
  | endTag closer => exact if_neg fun same => unfit (congrArg Stop.endTag same)
  | _ => rfl

end

/-- The chunks that a node is read from leave no other blocks open. -/
theorem readsNode_scans {body : BodyReader} (scans : BodyScans grammars outer body)
    (named : grammars.Named) {chunk : Chunk} {rest after : List Chunk} {node : Node}
    (read : ReadsNode grammars body chunk rest node after) :
    ∃ used, chunk :: rest = used ++ after ∧ Chunk.scanAll grammars outer used = .ok outer := by
  cases read with
  | text | output | assign => exact ⟨[_], rfl, Chunk.scanAll_singleton rfl⟩
  | @branch condition span _ _ read =>
      obtain ⟨shallow, used, split, closed⟩ := readsArms_scans scans read
      exact OpenBlock.scanned_block (.branch span false) rfl shallow split closed
  | @loop _ _ _ span _ _ _ _ _ found =>
      obtain ⟨shallow, used, split, closed⟩ := scans.scanned (.loop span) found rfl
      exact OpenBlock.scanned_block (.loop span) rfl shallow split closed
  | inline free registered inline =>
      refine ⟨[_], rfl, Chunk.scanAll_singleton ?_⟩
      simp [Chunk.scan, Chunk.opens?, Chunk.stop?, free, registered, inline]
  | @block name _ free registered block nameSpan args span _ _ _ _ _ found =>
      have opens := Chunk.scan_block free registered block nameSpan args span outer
      obtain ⟨shallow, used, split, closed⟩ :=
        scans.scanned (.tag name span) found (OpenBlock.meet?_endTag named registered)
      exact OpenBlock.scanned_block (.tag name span) opens shallow split closed

theorem failsNode_fault {body : BodyReader} (scans : BodyScans grammars outer body)
    (named : grammars.Named) {chunk : Chunk} {rest : List Chunk} {error : ParseError}
    (fails : FailsNode grammars body chunk rest error) :
    Chunk.fault? grammars outer (chunk :: rest) = some error := by
  cases fails with
  | @branch condition span _ _ fails =>
      have opens : (Chunk.header (.branch condition) span).scan grammars outer =
          (OpenBlock.branch span false).enter outer := rfl
      exact (OpenBlock.fault?_cons _ opens rest).trans (failsArms_fault scans fails)
  | @loop var varSpan iterable span _ _ fails =>
      have opens : (Chunk.header (.loop var varSpan iterable) span).scan grammars outer =
          (OpenBlock.loop span).enter outer := rfl
      refine (OpenBlock.fault?_cons _ opens rest).trans ?_
      refine failsBody_fault scans (.loop span) (fun stop unfit => ?_) fails
      cases stop with
      | endLoop => exact absurd rfl unfit
      | _ => rfl
  | unknown free absent =>
      refine Chunk.fault?_stuck ?_ rest
      simp [Chunk.scan, Chunk.opens?, Chunk.stop?, free, absent]
  | @block name _ free registered block nameSpan args span _ _ fails =>
      have opens := Chunk.scan_block free registered block nameSpan args span outer
      refine (OpenBlock.fault?_cons _ opens rest).trans ?_
      exact failsBody_fault scans (.tag name span)
        (fun _ unfit => OpenBlock.meet?_of_ne named registered unfit) fails

theorem readNodes_agrees {body : BodyReader} (scans : BodyScans grammars outer body)
    (named : grammars.Named) (chunks : List Chunk) :
    Agrees (Run.Scans grammars outer) (Chunk.fault? grammars outer chunks)
      (readNodes grammars body chunks) := by
  induction size : chunks.length using Nat.strongRecOn generalizing chunks with
  | ind size ih =>
      subst size
      cases chunks with
      | nil =>
          rw [readNodes_nil]
          exact rfl
      | cons chunk rest =>
          cases nextNode grammars body chunk rest with
          | stops stops same =>
              rw [same]
              exact ⟨[], chunk, rfl, rfl, stops, rfl⟩
          | @reads node after shorter reads same =>
              obtain ⟨used, split, scanned⟩ := readsNode_scans scans named reads
              rw [same]
              exact Run.agrees_cons split scanned (ih after.length shorter after rfl) shorter
          | fails fails same =>
              rw [same]
              exact failsNode_fault scans named fails

/-- A reader that lets as many blocks nest as the limit has left. -/
theorem readBody_scans (named : grammars.Named) {allowance : Nat} {outer : List OpenBlock}
    (left : outer.length + allowance = maxNesting) :
    BodyScans grammars outer (readBody grammars allowance) := by
  induction allowance generalizing outer with
  | zero =>
      intro block chunks
      have deep : block.enter outer = .error (.tooDeep maxNesting block.opener) :=
        if_neg (by omega)
      change block.fault? grammars outer chunks = _
      rw [OpenBlock.fault?, deep]
  | succ allowance ih =>
      intro block chunks
      have shallow : outer.length < maxNesting := by omega
      have inner : (block :: outer).length + allowance = maxNesting := by
        rw [List.length_cons]
        omega
      have nodes := readNodes_agrees (ih inner) named chunks
      rw [OpenBlock.fault?_of_lt shallow, readBody]
      cases read : readNodes grammars (readBody grammars allowance) chunks with
      | error error =>
          rw [read] at nodes
          exact nodes
      | ok run =>
          rw [read] at nodes
          exact ⟨shallow, nodes⟩

/-- The tree of a template, and the scan of its chunks from no open block on. -/
theorem Template.ofChunks_agrees (named : grammars.Named) (chunks : List Chunk) :
    Agrees (fun _ => Chunk.scanAll grammars [] chunks = .ok []) (Chunk.fault? grammars [] chunks)
      (ofChunks grammars chunks) := by
  have start : ([] : List OpenBlock).length + maxNesting = maxNesting := Nat.zero_add _
  have nodes := readNodes_agrees (readBody_scans named start) named chunks
  rw [ofChunks]
  cases read : readNodes grammars (readBody grammars maxNesting) chunks with
  | error error =>
      rw [read] at nodes
      exact nodes
  | ok run =>
      rw [read] at nodes
      cases run with
      | ended found => exact nodes
      | stopped found stop span rest shorter =>
          obtain ⟨used, chunk, rfl, scanned, stops, rfl⟩ := nodes
          change Chunk.fault? grammars [] (used ++ chunk :: rest) = _
          rw [Chunk.fault?_append scanned]
          exact Chunk.fault?_stuck (Chunk.scan_of_stop stops []) rest

/-- The tree is built just when the scan is stuck nowhere and leaves no block open. Else the error
is that of the first chunk at which the scan is stuck, or at the end of the chunks that the
innermost block is never closed. -/
theorem Template.ofChunks_scanned (named : grammars.Named) (chunks : List Chunk) :
    ((∃ template, ofChunks grammars chunks = .ok template) ↔
      Chunk.scanAll grammars [] chunks = .ok []) ∧
    ∀ error, ofChunks grammars chunks = .error error ↔
      (∃ before chunk after blocks, chunks = before ++ chunk :: after ∧
        Chunk.scanAll grammars [] before = .ok blocks ∧ chunk.Stuck grammars blocks error) ∨
      ∃ block outer, Chunk.scanAll grammars [] chunks = .ok (block :: outer) ∧
        error = .unclosedTag block.name block.opener := by
  simp only [← Chunk.fault?_eq_none, ← Chunk.fault?_eq_some]
  have agrees := ofChunks_agrees named chunks
  cases built : ofChunks grammars chunks with
  | error error =>
      rw [built] at agrees
      have fault : Chunk.fault? grammars [] chunks = some error := agrees
      simp [fault]
  | ok template =>
      rw [built] at agrees
      have fault : Chunk.fault? grammars [] chunks = none := Chunk.fault?_eq_none.mpr agrees
      simp [fault]

/-- A second `else`, and two blocks that are never closed, of which the inner one is reported. -/
theorem Template.ofChunks_scanned_malformed :
    let grammars : TagGrammars := [("cache", ⟨"cache", true⟩), ("req", ⟨"req", false⟩)]
    let place (start : Nat) : Span := ⟨start, start + 1⟩
    let branch : Chunk := .header (.branch (.var "x" (place 0))) (place 0)
    let stray : List Chunk :=
      [branch, .header .otherwise (place 1), .header (.tag "req" (place 2) []) (place 2),
        .header .otherwise (place 3), .header .endBranch (place 4)]
    let unclosed : List Chunk := [branch, .header (.tag "cache" (place 1) []) (place 1)]
    grammars.Named ∧ ofChunks grammars stray = .error (.unexpectedTag "else" (place 3)) ∧
      ofChunks grammars unclosed = .error (.unclosedTag "cache" (place 1)) := by
  intro grammars place branch stray unclosed
  have named : grammars.Named := by
    intro name grammar found
    simp only [grammars, Table.get?_cons, Table.get?_nil] at found
    split at found
    next same =>
      cases found
      exact same.symm
    next =>
      split at found
      next same =>
        cases found
        exact same.symm
      next => cases found
  refine ⟨named, ?_, ?_⟩
  · refine ((ofChunks_scanned named stray).2 _).mpr (Or.inl ?_)
    have unfit : ∀ block ∈ [OpenBlock.branch (place 0) true].head?,
        block.meet? .otherwise = none := by
      simp [OpenBlock.meet?]
    exact ⟨stray.take 3, _, stray.drop 4, _, rfl, rfl, .unfit rfl unfit⟩
  · refine ((ofChunks_scanned named unclosed).2 _).mpr (Or.inr ?_)
    exact ⟨.tag "cache" (place 1), [.branch (place 0) false], rfl, rfl⟩

end QueryTemplate
