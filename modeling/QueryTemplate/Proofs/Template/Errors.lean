import QueryTemplate.Proofs.Lexing.Faults
import QueryTemplate.Proofs.Reading.Rejected
import QueryTemplate.Proofs.Reading.Spans
import QueryTemplate.Proofs.Template.Readings

set_option autoImplicit false

/- Where the errors of a source stand. Every stage of reading points at something that it has found:
characters, a token, a chunk, or a name in a chunk. No stage has the end of the source to point at,
as the grammar stops in a region, and a region has its closer. -/

namespace QueryTemplate

open Reader Grammar Lexer

/-- The span is not empty, lies in the source and begins and ends between characters. -/
structure Span.Cuts (source : String) (span : Span) : Prop where
  filled : span.start < span.stop
  slice : ∃ slice, Text.slice? span.start span.stop source.toList = some slice

section

variable {source : String} {found : List (Located Token)}

theorem cuts_token (read : tokens source = .ok found) {token : Located Token}
    (within : token ∈ found) : token.span.Cuts source := by
  obtain ⟨slice, -, cut, -⟩ := exists_slice read within
  exact ⟨start_lt_stop read within, slice, cut⟩

theorem Span.Covers.cuts (read : tokens source = .ok found) {run : List (Located Token)}
    {span : Span} (covers : span.Covers run) (part : run.Sublist found) : span.Cuts source := by
  have filled := covers.filled ((InOrder.of_tokens read).sublist part)
  obtain ⟨first, begins, start⟩ := covers.start
  obtain ⟨last, ends, stop⟩ := covers.stop
  obtain ⟨-, _, front⟩ := cuts_token read (part.subset (List.mem_of_mem_head? begins))
  obtain ⟨-, _, back⟩ := cuts_token read (part.subset (List.mem_of_mem_getLast? ends))
  refine ⟨filled, ?_⟩
  rw [start, stop] at filled ⊢
  exact Text.exists_slice?_of_lt front back filled

theorem Lexer.Stands.cut {span : Span} {slice : List Char}
    (stands : Stands 0 source.toList span slice) :
    Text.slice? span.start span.stop source.toList = some slice := by
  obtain ⟨front, back, whole, start, stop⟩ := stands
  rw [Nat.zero_add] at start
  exact Text.slice?_eq_some.mpr ⟨front, back, whole, start.symm, stop.symm⟩

theorem Lexer.Stands.cuts {span : Span} {slice : List Char}
    (stands : Stands 0 source.toList span slice) (present : slice ≠ []) : span.Cuts source where
  filled := by
    obtain ⟨_, _, _, _, stop⟩ := stands
    have wide := Text.byteLength_pos present
    omega
  slice := ⟨slice, stands.cut⟩

end

theorem Nesting.check_eq_error {count : Nesting} {tokens : List (Located Token)} {error : ParseError}
    (failed : count.check tokens = .error error) :
    ∃ token ∈ tokens, ∃ limit, error = .tooDeep limit token.span := by
  induction tokens generalizing count with
  | nil => cases failed
  | cons token rest ih =>
      rw [check] at failed
      split at failed
      · cases failed
        exact ⟨token, List.mem_cons_self, _, rfl⟩
      · split at failed
        · cases failed
          exact ⟨token, List.mem_cons_self, _, rfl⟩
        · obtain ⟨other, within, limit, same⟩ := ih failed
          exact ⟨other, List.mem_cons_of_mem _ within, limit, same⟩

/-- The token stands in a region: after its opener, and no later than at its closer. -/
def InRegion (tokens : List (Located Token)) (token : Located Token) : Prop :=
  ∃ front opener first inside closer last later,
    tokens = front ++ ⟨.mark opener, first⟩ :: (inside ++ ⟨.mark closer, last⟩ :: later) ∧
    Delimits opener closer ∧ (∀ other ∈ inside, other.value ≠ .mark closer) ∧
    token ∈ inside ++ [⟨.mark closer, last⟩]

theorem InRegion.mem {tokens : List (Located Token)} {token : Located Token}
    (inside : InRegion tokens token) : token ∈ tokens := by
  obtain ⟨front, opener, first, inside, closer, last, later, rfl, -, -, within⟩ := inside
  have further := List.mem_append_left later within
  rw [List.append_assoc] at further
  exact List.mem_append_right _ (List.mem_cons_of_mem _ further)

namespace Chunk

theorem StopsIn.exists_token {region : List (Located Token)} {remaining : Nat}
    (stops : StopsIn region remaining) (front : List (Located Token)) :
    ∃ token, (front ++ region)[(front ++ region).length - remaining]? = some token ∧
      InRegion (front ++ region) token := by
  cases stops with
  | @region opener closer delimits first last inside later closed _ least most =>
      let body : List (Located Token) := inside ++ [⟨.mark closer, last⟩]
      let before : List (Located Token) := front ++ [⟨.mark opener, first⟩]
      -- how many tokens the region has between its opener and the token
      let count := body.length + later.length - remaining
      have wide : body.length = inside.length + 1 := List.length_append
      have few : count < body.length := by omega
      have whole : front ++ ⟨.mark opener, first⟩ :: (inside ++ ⟨.mark closer, last⟩ :: later) =
          before ++ (body ++ later) := by simp [before, body]
      have most : remaining ≤ body.length + later.length := by
        rw [List.length_append, List.length_cons] at most
        omega
      have total : (before ++ (body ++ later)).length =
          before.length + (body.length + later.length) :=
        List.length_append.trans (congrArg _ List.length_append)
      have place : (before ++ (body ++ later)).length - remaining = before.length + count := by
        omega
      refine ⟨body[count], ?_, front, opener, first, inside, closer, last, later, rfl, delimits,
        closed, List.getElem_mem few⟩
      rw [whole, place, List.getElem?_append_right (Nat.le_add_right _ _),
        Nat.add_sub_cancel_left, List.getElem?_append_left few, List.getElem?_eq_getElem few]

/-- Tokens from a source that are not chunks are rejected at one of them, in a region. -/
theorem ofTokens_eq_error {size : Nat} {tokens : List (Located Token)} {error : ParseError}
    (enclosed : Enclosed tokens) (failed : ofTokens size tokens = .error error) :
    ∃ token expected, error = .unexpected (some token.value) expected token.span ∧
      InRegion tokens token := by
  have fails : (listReader tokens).result = none := by
    rcases result_eq_none_or listReader tokens with none | ⟨chunks, rest, accepted⟩
    · exact none
    · rw [ofTokens_eq_ok.mpr ⟨rest, accepted⟩] at failed
      cases failed
  obtain ⟨miss, front, region, missed, rfl, stops⟩ := stopsIn_of_rejected enclosed fails
  obtain ⟨token, here, inside⟩ := stops.exists_token front
  rw [ofTokens_of_miss fails missed here] at failed
  exact ⟨token, miss.expected, (Except.error.inj failed).symm, inside⟩

end Chunk

/-- Where a chunk and what is in it stand. -/
def Chunk.spots (chunk : Chunk) : List Span := chunk.span :: chunk.places

/-- An error about how tags are used that stands at one of the spots. -/
structure ParseError.Misuse (spots : List Span) (error : ParseError) : Prop where
  place : error.span ∈ spots
  silent : error.syntaxDetail? = none

/-- A good result, or an error at one of the spots. -/
def Blames {α : Type} (good : α → Prop) (spots : List Span) : Except ParseError α → Prop
  | .ok result => good result
  | .error error => error.Misuse spots

/-- A run that is stopped by one of the chunks, and leaves some of them. -/
def Run.Stays {chunks : List Chunk} : Run chunks → Prop
  | ended _ => True
  | stopped _ _ span rest _ => span ∈ chunks.flatMap Chunk.spots ∧ rest ⊆ chunks

def BodyBlames (body : BodyReader) : Prop :=
  ∀ opener chunks, Blames Run.Stays (opener :: chunks.flatMap Chunk.spots) (body opener chunks)

theorem Chunk.span_mem_spots {chunk : Chunk} {chunks : List Chunk} (within : chunk ∈ chunks) :
    chunk.span ∈ chunks.flatMap spots :=
  List.mem_flatMap.mpr ⟨chunk, within, List.mem_cons_self⟩

theorem Chunk.spots_subset {chunks others : List Chunk} (part : chunks ⊆ others) :
    chunks.flatMap spots ⊆ others.flatMap spots := by
  intro spot within
  obtain ⟨chunk, member, own⟩ := List.mem_flatMap.mp within
  exact List.mem_flatMap.mpr ⟨chunk, part member, own⟩

theorem ParseError.Misuse.mono {spots others : List Span} {error : ParseError}
    (misuse : error.Misuse spots) (part : spots ⊆ others) : error.Misuse others :=
  ⟨part misuse.place, misuse.silent⟩

theorem Stop.misuse (stop : Stop) {span : Span} {spots : List Span} (place : span ∈ spots) :
    (stop.error span).Misuse spots := ⟨place, rfl⟩

/-- A body that a header ends leaves some of the chunks. -/
theorem BodyBlames.subset {body : BodyReader} (blames : BodyBlames body) {opener place : Span}
    {chunks rest : List Chunk} {nodes : List Node} {stop : Stop}
    {shorter : rest.length < chunks.length}
    (found : body opener chunks = .ok (.stopped nodes stop place rest shorter)) :
    rest ⊆ chunks := by
  have stays := blames opener chunks
  rw [found] at stays
  exact stays.2

/-- A body that is not closed is blamed on its opener or on something in it. -/
theorem failsBody_misuse {body : BodyReader} (blames : BodyBlames body) {opener : Span}
    {name : String} {closes : Stop → Prop} {chunks : List Chunk} {error : ParseError}
    {spots : List Span} (opens : opener ∈ spots) (part : chunks.flatMap Chunk.spots ⊆ spots)
    (fails : FailsBody body opener name closes chunks error) : error.Misuse spots := by
  have stays := blames opener chunks
  cases fails with
  | failed found =>
      rw [found] at stays
      exact ParseError.Misuse.mono stays (List.cons_subset.mpr ⟨opens, part⟩)
  | ended found => exact ⟨opens, rfl⟩
  | unfit found _ =>
      rw [found] at stays
      exact Stop.misuse _ (part stays.1)

theorem failsArms_misuse {body : BodyReader} (blames : BodyBlames body) {opener : Span}
    {chunks : List Chunk} {error : ParseError} {spots : List Span} (opens : opener ∈ spots)
    (part : chunks.flatMap Chunk.spots ⊆ spots) (fails : FailsArms body opener chunks error) :
    error.Misuse spots := by
  induction fails with
  | arm fails => exact failsBody_misuse blames opens part fails
  | otherwise found fails =>
      have left := Chunk.spots_subset (blames.subset found)
      exact failsBody_misuse blames opens (List.Subset.trans left part) fails
  | elif found _ ih =>
      have left := Chunk.spots_subset (blames.subset found)
      exact ih (List.Subset.trans left part)

/-- Arms that are read leave some of the chunks. -/
theorem readsArms_subset {body : BodyReader} (blames : BodyBlames body) {opener : Span}
    {condition : Expr} {chunks : List Chunk} {block : Arms chunks}
    (read : ReadsArms body opener condition chunks block) : block.rest ⊆ chunks := by
  induction read with
  | last found => exact blames.subset found
  | otherwise found final => exact List.Subset.trans (blames.subset final) (blames.subset found)
  | elif found _ ih => exact List.Subset.trans ih (blames.subset found)

theorem readsNode_subset {grammars : TagGrammars} {body : BodyReader} (blames : BodyBlames body)
    {chunk : Chunk} {rest after : List Chunk} {node : Node}
    (read : ReadsNode grammars body chunk rest node after) : after ⊆ rest := by
  cases read with
  | branch read => exact readsArms_subset blames read
  | loop _ _ _ found | block _ _ _ _ _ found => exact blames.subset found
  | _ => exact List.Subset.refl _

theorem failsNode_misuse {grammars : TagGrammars} {body : BodyReader} (blames : BodyBlames body)
    {chunk : Chunk} {rest : List Chunk} {error : ParseError}
    (fails : FailsNode grammars body chunk rest error) :
    error.Misuse ((chunk :: rest).flatMap Chunk.spots) := by
  have own : chunk.span ∈ (chunk :: rest).flatMap Chunk.spots :=
    Chunk.span_mem_spots List.mem_cons_self
  have part : rest.flatMap Chunk.spots ⊆ (chunk :: rest).flatMap Chunk.spots :=
    Chunk.spots_subset (List.subset_cons_self _ _)
  cases fails with
  | branch condition fails => exact failsArms_misuse blames own part fails
  | loop _ _ _ fails | block _ _ _ _ _ fails => exact failsBody_misuse blames own part fails
  | @unknown name _ _ nameSpan args span =>
      have named : nameSpan ∈ (Chunk.header (.tag name nameSpan args) span).spots :=
        List.mem_cons_of_mem _ List.mem_cons_self
      exact ⟨List.mem_flatMap.mpr ⟨_, List.mem_cons_self, named⟩, rfl⟩

/-- A node in front of a run. -/
theorem Run.blames_cons {rest chunks : List Chunk} {node : Node}
    {read : Except ParseError (Run rest)} (fewer : rest ⊆ chunks)
    (blames : Blames Run.Stays (rest.flatMap Chunk.spots) read)
    (shorter : rest.length < chunks.length) :
    Blames Run.Stays (chunks.flatMap Chunk.spots) (read.map (Run.cons node shorter)) := by
  cases read with
  | error error => exact blames.mono (Chunk.spots_subset fewer)
  | ok run =>
      cases run with
      | ended nodes => trivial
      | stopped nodes stop span after below =>
          exact ⟨Chunk.spots_subset fewer blames.1, List.Subset.trans blames.2 fewer⟩

theorem readNodes_blames (grammars : TagGrammars) {body : BodyReader} (blames : BodyBlames body)
    (chunks : List Chunk) :
    Blames Run.Stays (chunks.flatMap Chunk.spots) (readNodes grammars body chunks) := by
  induction size : chunks.length using Nat.strongRecOn generalizing chunks with
  | ind size ih =>
      subst size
      cases chunks with
      | nil =>
          rw [readNodes_nil]
          trivial
      | cons chunk rest =>
          cases nextNode grammars body chunk rest with
          | stops _ same =>
              rw [same]
              exact ⟨Chunk.span_mem_spots List.mem_cons_self, List.subset_cons_self _ _⟩
          | @reads node after shorter reads same =>
              have fewer := List.Subset.trans (readsNode_subset blames reads)
                (List.subset_cons_self chunk rest)
              rw [same]
              exact Run.blames_cons fewer (ih after.length shorter after rfl) shorter
          | fails fails same =>
              rw [same]
              exact failsNode_misuse blames fails

theorem readBody_blames (grammars : TagGrammars) (allowance : Nat) :
    BodyBlames (readBody grammars allowance) := by
  induction allowance with
  | zero => exact fun opener chunks => ⟨List.mem_cons_self, rfl⟩
  | succ allowance ih =>
      intro opener chunks
      have blames := readNodes_blames grammars ih chunks
      rw [readBody]
      cases found : readNodes grammars (readBody grammars allowance) chunks with
      | error error =>
          rw [found] at blames
          exact blames.mono (List.subset_cons_self _ _)
      | ok run =>
          rw [found] at blames
          exact blames

namespace Template

variable {grammars : TagGrammars} {source : String} {error : ParseError}

theorem ofChunks_eq_error {chunks : List Chunk} (failed : ofChunks grammars chunks = .error error) :
    error.Misuse (chunks.flatMap Chunk.spots) := by
  have blames := readNodes_blames grammars (readBody_blames grammars maxNesting) chunks
  rw [ofChunks] at failed
  split at failed
  next found =>
    rw [found] at blames
    cases failed
    exact blames
  next => cases failed
  next found =>
    rw [found] at blames
    cases failed
    exact Stop.misuse _ blames.1

theorem parse_eq_error : parse grammars source = .error error ↔ Chunk.ofSource source = .error error ∨
    ∃ chunks, Chunk.ofSource source = .ok chunks ∧ ofChunks grammars chunks = .error error := by
  unfold parse
  rcases read : Chunk.ofSource source with other | chunks <;> simp [bind, Except.bind]

/-- Reading gives a tree or one error, and the error points at something: its span is not empty, lies
in the source and cuts no character. A syntax error is about characters that stand there and begin no
token, or about a token of a region, after the opener and no later than at the closer, so never about
the end of the source. -/
theorem errors_point_at_source (failed : parse grammars source = .error error) :
    error.span.Cuts source ∧
    (∀ slice span, error = .unreadable slice span →
      Text.slice? span.start span.stop source.toList = some slice.toList) ∧
    ∀ found expected span, error = .unexpected found expected span →
      ∃ scanned token, tokens source = .ok scanned ∧ InRegion scanned token ∧
        found = some token.value ∧ span = token.span := by
  have quiet (silent : error.syntaxDetail? = none) :
      (∀ slice span, error = .unreadable slice span →
        Text.slice? span.start span.stop source.toList = some slice.toList) ∧
      ∀ found expected span, error = .unexpected found expected span →
        ∃ scanned token, tokens source = .ok scanned ∧ InRegion scanned token ∧
          found = some token.value ∧ span = token.span := by
    constructor
    · rintro slice span rfl
      cases silent
    · rintro found expected span rfl
      cases silent
  rcases parse_eq_error.mp failed with unread | ⟨chunks, read, unbuilt⟩
  · rcases Chunk.ofSource_eq_error.mp unread with unscanned | ⟨scanned, read, deep | ⟨-, rejected⟩⟩
    · cases scanSource_fault unscanned with
      | unreadable present stands =>
          refine ⟨stands.cuts present, ?_, by rintro _ _ _ ⟨⟩⟩
          rintro _ _ ⟨⟩
          rw [String.toList_ofList]
          exact stands.cut
      | unterminated region present stands => exact ⟨stands.cuts present, quiet rfl⟩
    · obtain ⟨token, within, limit, rfl⟩ := Nesting.check_eq_error deep
      exact ⟨cuts_token read within, quiet rfl⟩
    · obtain ⟨token, expected, rfl, inside⟩ :=
        Chunk.ofTokens_eq_error (Chunk.enclosed_of_tokens read) rejected
      refine ⟨cuts_token read inside.mem, by rintro _ _ ⟨⟩, ?_⟩
      rintro _ _ _ ⟨⟩
      exact ⟨scanned, token, read, inside, rfl, rfl⟩
  · obtain ⟨scanned, scans, -, listed⟩ := Chunk.ofSource_eq_ok.mp read
    obtain ⟨place, silent⟩ := ofChunks_eq_error unbuilt
    obtain ⟨chunk, member, spot⟩ := List.mem_flatMap.mp place
    obtain ⟨own, part, derived⟩ := (Chunk.parts_ofTokens listed).exists_of_mem member
    obtain ⟨covers, laid⟩ := derived.laid
    refine ⟨?_, quiet silent⟩
    rcases List.mem_cons.mp spot with whole | inner
    · rw [whole]
      exact covers.cuts scans part
    · obtain ⟨run, part', covers⟩ := laid.exists_covers inner
      exact covers.cuts scans (part'.trans part)

/-- In `é{{ a | f( }}` the parentheses stay open, and the error is at the closer of the region. -/
theorem errors_point_at_source_closer :
    let source := "é\x7b\x7b a | f( \x7d\x7d"
    let error : ParseError :=
      .unexpected (some (.mark .outputClose)) [.notWord, .parenOpen, .parenClose] ⟨12, 14⟩
    parse [] source = .error error ∧ error.span.Cuts source ∧
      Text.slice? 12 14 source.toList = some ['}', '}'] ∧
      ∃ scanned, tokens source = .ok scanned ∧
        InRegion scanned ⟨.mark .outputClose, ⟨12, 14⟩⟩ := by
  intro source error
  have fails : (match parse [] source with
      | .ok _ => false
      | .error found => decide (found = error)) = true := by decide +kernel
  split at fails
  next => cases fails
  next found failed =>
    obtain rfl := of_decide_eq_true fails
    obtain ⟨cuts, -, unexpected⟩ := errors_point_at_source failed
    obtain ⟨scanned, ⟨value, span⟩, scans, inside, same, place⟩ := unexpected _ _ _ rfl
    cases same
    cases place
    exact ⟨failed, cuts, by decide +kernel, scanned, scans, inside⟩

end Template

end QueryTemplate
