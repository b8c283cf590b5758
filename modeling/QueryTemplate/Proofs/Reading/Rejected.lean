import QueryTemplate.Proofs.Lexing.Pieces
import QueryTemplate.Proofs.Reading.Limits
import QueryTemplate.Proofs.Reading.Regions
import QueryTemplate.Proofs.Reading.Viable
import QueryTemplate.Template.Tree

set_option autoImplicit false

/- Where a source that is not made of chunks is rejected: at the first token with which the tokens
can no longer be read on to chunks. -/

namespace QueryTemplate

open Reader Grammar Lexer

/-- Tokens that are counted in the same way everywhere hold no closer. -/
theorem Limited.not_closer {elements : List Element} {used : List (Located Token)}
    (limited : Limited elements used) {closer : Mark}
    (closes : ∀ n : Nesting, n.after (.mark closer) = .start) :
    .mark closer ∉ values used := by
  intro within
  obtain ⟨front, back, split⟩ := List.append_of_mem within
  obtain ⟨count, ran⟩ := limited.run
  have same (n : Nesting) : n.run (values used) = Nesting.start.run back := by
    rw [split, Nesting.run_append, Nesting.run_cons, closes]
  -- the depth before the tokens is the one after them, and would be forgotten at the closer
  have kept (depth : Nat) : (Nesting.start.run back).depth = depth := by
    rw [← same ⟨[], depth, 0, 0⟩, ran ⟨[], depth, 0, 0⟩ rfl]
  cases (kept 0).symm.trans (kept 1)

/-- The reader takes no closer. -/
def Unclosing {α : Type} (closer : Mark) (reader : Reader α) : Prop :=
  Takes (fun _ => True) reader fun _ used => .mark closer ∉ values used

namespace Chunk

section

variable {α : Type} {reader : Reader α} {closer : Mark} {inside later rest : List (Located Token)}
  {last : Span}

/-- A reader that takes no closer stops before it. -/
theorem leaves_before_closer (unclosing : Unclosing closer reader)
    (leaves : Leaves reader (inside ++ ⟨.mark closer, last⟩ :: later) rest) :
    ∃ kept, kept <:+ inside ∧ rest = kept ++ ⟨.mark closer, last⟩ :: later := by
  obtain ⟨value, read⟩ := leaves
  obtain ⟨used, split, unclosed⟩ := unclosing _ value rest (fun _ _ => trivial) read
  rcases List.append_eq_append_iff.mp split with ⟨more, rfl, tail⟩ | ⟨kept, rfl, rfl⟩
  · cases more with
    | nil => exact ⟨[], List.nil_suffix, tail.symm⟩
    | cons token more =>
        cases tail
        exact absurd (by simp) unclosed
  · exact ⟨kept, List.suffix_append _ _, rfl⟩

/-- And it misses nothing beyond it. -/
theorem remaining_of_closer (unclosing : Unclosing closer reader)
    (predictive : ∀ size, Predictive size (Comes closer) reader) {miss : Miss}
    (found : (reader (inside ++ ⟨.mark closer, last⟩ :: later)).miss = some miss) :
    later.length < miss.remaining := by
  rcases Nat.lt_or_ge later.length miss.remaining with further | bound
  · exact further
  exfalso
  let front := later.take (later.length - miss.remaining)
  let tail := later.drop (later.length - miss.remaining)
  have split : inside ++ ⟨.mark closer, last⟩ :: later =
      (inside ++ ⟨.mark closer, last⟩ :: front) ++ tail := by
    rw [List.append_assoc, List.cons_append, List.take_append_drop]
  rw [split] at found
  have level : tail.length = miss.remaining := by
    rw [List.length_drop]
    omega
  obtain ⟨word, ends⟩ :=
    (predictive _).hopes (Nat.lt_succ_self _) found level (Or.inl rfl)
  obtain ⟨value, read⟩ := ends _ [closer.anywhere] rfl rfl
  obtain ⟨used, whole, unclosed⟩ := unclosing _ value _ (fun _ _ => trivial) read
  rw [List.nil_append, ← List.append_assoc] at whole
  rw [← List.append_cancel_right whole] at unclosed
  exact unclosed (by simp)

end

/-- What the reader leaves is what comes later, and it misses nothing there. -/
structure Confined {α : Type} (later : List (Located Token)) (reader : Reader α)
    (tokens : List (Located Token)) : Prop where
  leaves {rest : List (Located Token)} (read : Leaves reader tokens rest) : rest = later
  misses {miss : Miss} (found : (reader tokens).miss = some miss) : later.length < miss.remaining

section

variable {α β : Type} {reader other : Reader α} {closer : Mark}
  {tokens inside later rest : List (Located Token)}

theorem Confined.or (confined : Confined later reader tokens)
    (confined' : Confined later other tokens) : Confined later (reader.or other) tokens where
  leaves := by
    rintro rest ⟨value, read⟩
    rw [result_or] at read
    rcases Option.or_eq_some_iff.mp read with here | ⟨-, there⟩
    · exact confined.leaves ⟨value, here⟩
    · exact confined'.leaves ⟨value, there⟩
  misses := by
    intro miss found
    rcases result_eq_none_or reader tokens with fails | ⟨value, rest, read⟩
    · rw [miss_or_of_none fails] at found
      rcases Miss.remaining_of_join found with ⟨early, here, level⟩ | ⟨late, there, level⟩
      · exact level ▸ confined.misses here
      · exact level ▸ confined'.misses there
    · rw [miss_or_of_some read] at found
      exact confined.misses found

theorem Confined.choice {readers : List (Reader α)}
    (each : ∀ reader ∈ readers, Confined later reader tokens) :
    Confined later (Reader.choice readers) tokens := by
  match readers with
  | [] => exact ⟨fun ⟨_, read⟩ => (nomatch read), fun found => (nomatch found)⟩
  | [reader] => exact each reader List.mem_cons_self
  | reader :: next :: others =>
      exact (each reader List.mem_cons_self).or
        (choice fun other within => each other (List.mem_cons_of_mem _ within))

/-- A reader of another kind of token fails at once. -/
theorem confined_of_other {kind : Token → Prop} {expected : List Mark} {next : α → Reader β}
    (takes : TakesOne kind expected reader)
    (none : ∀ token, (values tokens).head? = some token → ¬kind token)
    (fewer : later.length < tokens.length) : Confined later (reader >>= next) tokens := by
  have fails := takes.result_eq_none none
  refine ⟨?_, fun found => ?_⟩
  · rintro rest ⟨_, read⟩
    rw [result_bind_of_none fails] at read
    cases read
  · rw [miss_bind_of_none fails] at found
    rw [takes.of_miss found]
    exact fewer

theorem Confined.after_mark {wanted : Mark} {next : Span → Reader β} {span : Span}
    (confined : Confined later (next span) tokens) :
    Confined later (mark wanted >>= next) (⟨.mark wanted, span⟩ :: tokens) := by
  have read := result_mark wanted span tokens
  obtain ⟨_, -, -, silent⟩ := (takesOne_mark wanted).exists_cons ⟨span, read⟩
  refine ⟨?_, fun found => ?_⟩
  · rintro rest ⟨value, whole⟩
    rw [result_bind_of_some read] at whole
    exact confined.leaves ⟨value, whole⟩
  · rw [miss_bind_of_some read, silent] at found
    exact confined.misses found

/-- A region is left after its closer, and nothing is missed beyond it. -/
theorem confined_region {reader : Reader α} {opener : Mark} (unclosing : Unclosing closer reader)
    (predictive : ∀ size, Predictive size (Comes closer) reader)
    (closed : ∀ token ∈ inside, token.value ≠ .mark closer) (make : Span → α → Span → Chunk)
    (first last : Span) :
    Confined later (do
      let first ← mark opener
      let content ← reader
      let last ← mark closer
      return make first content last)
      (⟨.mark opener, first⟩ :: (inside ++ ⟨.mark closer, last⟩ :: later)) := by
  refine Confined.after_mark ⟨?_, fun found => ?_⟩
  · rintro rest ⟨_, whole⟩
    obtain ⟨content, mid, read, whole⟩ := result_bind_eq_some.mp whole
    obtain ⟨span, left, close, whole⟩ := result_bind_eq_some.mp whole
    cases whole
    obtain ⟨kept, within, rfl⟩ := leaves_before_closer unclosing ⟨content, read⟩
    have split := result_mark_eq_some.mp close
    cases kept with
    | nil =>
        cases split
        rfl
    | cons token kept =>
        cases split
        exact absurd rfl (closed _ (within.subset List.mem_cons_self))
  · rcases result_eq_none_or reader (inside ++ ⟨.mark closer, last⟩ :: later) with
      fails | ⟨content, mid, read⟩
    · rw [miss_bind_of_none fails] at found
      exact remaining_of_closer unclosing predictive found
    · rw [miss_bind_of_some read] at found
      obtain ⟨kept, -, rfl⟩ := leaves_before_closer unclosing ⟨content, read⟩
      rcases Miss.remaining_of_join found with ⟨early, here, level⟩ | ⟨late, there, level⟩
      · exact level ▸ remaining_of_closer unclosing predictive here
      · rw [← level, ((takesOne_mark closer).map _).of_miss there]
        simp only [List.length_append, List.length_cons]
        omega

theorem unclosing_expr (closes : ∀ n : Nesting, n.after (.mark closer) = .start) :
    Unclosing closer Expr.reader :=
  Expr.accepts_reader.mono fun _ _ derived => (Limited.derived derived).not_closer closes

theorem unclosing_header (closes : ∀ n : Nesting, n.after (.mark closer) = .start) :
    Unclosing closer Header.reader :=
  Header.accepts_reader.mono fun _ _ derived => derived.limited.not_closer closes

/-- Tokens as they are read from a source: texts, and regions with an opener and its closer. -/
inductive Enclosed : List (Located Token) → Prop
  | nil : Enclosed []
  | text (content : String) (span : Span) {later : List (Located Token)} (tail : Enclosed later) :
      Enclosed (⟨.text content, span⟩ :: later)
  | code {opener closer : Mark} (delimits : Delimits opener closer) (first last : Span)
      {inside later : List (Located Token)}
      (closed : ∀ token ∈ inside, token.value ≠ .mark closer) (tail : Enclosed later) :
      Enclosed (⟨.mark opener, first⟩ :: (inside ++ ⟨.mark closer, last⟩ :: later))

theorem confined_text (content : String) (span : Span) (later : List (Located Token)) :
    Confined later Chunk.reader (⟨.text content, span⟩ :: later) := by
  refine .choice fun reader within => ?_
  simp only [List.mem_cons, List.not_mem_nil, or_false] at within
  have fewer : later.length < (⟨.text content, span⟩ :: later : List (Located Token)).length :=
    Nat.lt_succ_self _
  rcases within with rfl | rfl | rfl
  · constructor
    · rintro rest ⟨_, read⟩
      cases read
      rfl
    · intro miss found
      cases found
  · exact confined_of_other (takesOne_mark _) (by rintro _ ⟨⟩ ⟨⟩) fewer
  · exact confined_of_other (takesOne_mark _) (by rintro _ ⟨⟩ ⟨⟩) fewer

theorem confined_code {opener : Mark} (delimits : Delimits opener closer) (first last : Span)
    (closed : ∀ token ∈ inside, token.value ≠ .mark closer) :
    Confined later Chunk.reader
      (⟨.mark opener, first⟩ :: (inside ++ ⟨.mark closer, last⟩ :: later)) := by
  have fewer : later.length <
      (⟨.mark opener, first⟩ :: (inside ++ ⟨.mark closer, last⟩ :: later)).length := by
    simp only [List.length_append, List.length_cons]
    omega
  refine .choice fun reader within => ?_
  simp only [List.mem_cons, List.not_mem_nil, or_false] at within
  cases delimits with
  | output =>
      rcases within with rfl | rfl | rfl
      · exact confined_of_other (takesOne_accept _) (by rintro _ ⟨⟩ ⟨_, ⟨⟩⟩) fewer
      · exact confined_region (unclosing_expr fun _ => rfl)
          (fun size => (Expr.predictive_reader size).mono fun _ comes => comes.ends rfl) closed _
          first last
      · exact confined_of_other (takesOne_mark _) (by rintro _ ⟨⟩ ⟨⟩) fewer
  | tag =>
      rcases within with rfl | rfl | rfl
      · exact confined_of_other (takesOne_accept _) (by rintro _ ⟨⟩ ⟨_, ⟨⟩⟩) fewer
      · exact confined_of_other (takesOne_mark _) (by rintro _ ⟨⟩ ⟨⟩) fewer
      · exact confined_region (unclosing_header fun _ => rfl) (fun _ => Header.predictive_reader)
          closed _ first last

/-- The tokens begin with a region, and of the tokens after its opener, up to its closer, one is so
many tokens away from the end. -/
inductive StopsIn : List (Located Token) → Nat → Prop
  | region {opener closer : Mark} (delimits : Delimits opener closer) (first last : Span)
      {inside later : List (Located Token)}
      (closed : ∀ token ∈ inside, token.value ≠ .mark closer) {remaining : Nat}
      (least : later.length < remaining)
      (most : remaining ≤ (inside ++ ⟨.mark closer, last⟩ :: later).length) :
      StopsIn (⟨.mark opener, first⟩ :: (inside ++ ⟨.mark closer, last⟩ :: later)) remaining

theorem StopsIn.pos {remaining : Nat} (stops : StopsIn tokens remaining) : 0 < remaining := by
  cases stops with
  | region _ _ _ _ least _ => exact Nat.lt_of_le_of_lt (Nat.zero_le _) least

theorem StopsIn.lt_length {remaining : Nat} (stops : StopsIn tokens remaining) :
    remaining < tokens.length := by
  cases stops with
  | region _ _ _ _ _ most => exact Nat.lt_succ_of_le most

/-- All tokens are read, or the chunks end before a region and the furthest miss is in there. -/
inductive Settles (tokens : List (Located Token)) : Prop
  | whole (leaves : Leaves (many Chunk.reader) tokens [])
  | stopped {region : List (Located Token)} {miss : Miss}
      (leaves : Leaves (many Chunk.reader) tokens region)
      (found : (many Chunk.reader tokens).miss = some miss) (stops : StopsIn region miss.remaining)

/-- Some chunk begins with the opener of a region. -/
theorem exists_region {opener : Mark} (delimits : Delimits opener closer) (first : Span) :
    ∃ word, Leaves Chunk.reader (⟨.mark opener, first⟩ :: word) [] := by
  cases delimits with
  | output =>
      have comes : Comes .outputClose [Mark.outputClose.anywhere] := rfl
      have ends : Expr.Ends [Mark.outputClose.anywhere] := comes.ends rfl
      refine ⟨[someName, Mark.outputClose.anywhere], leaves_or_of_none rfl (Leaves.or ?_ _)⟩
      refine (leaves_mark .outputOpen first _).bind fun _ => ?_
      exact (Expr.leaves_reader_name ends).bind fun _ => (leaves_mark ..).map _
  | tag => exact ⟨[Mark.elseWord.anywhere, Mark.tagClose.anywhere], _, rfl⟩

/-- A region that is rejected is so after its opener. -/
theorem exists_miss_of_opener {opener : Mark} (delimits : Delimits opener closer) {first : Span}
    (fails : (Chunk.reader (⟨.mark opener, first⟩ :: tokens)).result = none) :
    ∃ miss, (Chunk.reader (⟨.mark opener, first⟩ :: tokens)).miss = some miss ∧
      miss.remaining ≤ tokens.length := by
  have predictive : Predictive (tokens.length + 2) Anything Chunk.reader := predictive_reader
  obtain ⟨miss, found⟩ := predictive.missed (Nat.lt_succ_self _) fails
  refine ⟨miss, found, Nat.le_of_not_lt fun further => ?_⟩
  obtain ⟨word, _, read⟩ := exists_region delimits first
  have blind : Miss.Blind (Chunk.reader ([] ++ ⟨.mark opener, first⟩ :: tokens)).miss
      (⟨.mark opener, first⟩ :: tokens) (⟨.mark opener, first⟩ :: word) := by
    intro other missed
    cases found.symm.trans missed
    exact ⟨further, fun _ => Or.inl rfl⟩
  -- all that begins with this opener would be rejected
  have refused := predictive.fails (Nat.lt_succ_self _) (rfl : values [] = values []) blind fails
  rw [List.nil_append, read] at refused
  cases refused

theorem Settles.behind (settles : Settles later) (confined : Confined later Chunk.reader tokens)
    (fewer : later.length < tokens.length) {chunk : Chunk}
    (read : (Chunk.reader tokens).result = some (chunk, later)) : Settles tokens := by
  obtain ⟨joined, onwards⟩ := many_of_leaves read fewer
  cases settles with
  | whole leaves => exact .whole ((onwards _).mpr leaves)
  | stopped leaves found stops =>
      refine .stopped ((onwards _).mpr leaves) ?_ stops
      rw [joined, found]
      have near := ((predictive_many (later.length + 1)).range (Nat.lt_succ_self _) found).1
      exact Miss.join_of_further fun early here => Nat.lt_of_le_of_lt near (confined.misses here)

theorem Enclosed.settles (enclosed : Enclosed tokens) : Settles tokens := by
  induction enclosed with
  | nil => exact .whole (leaves_many_of_idle (idle_of_none rfl))
  | @text content span later _ ih =>
      have read : (Chunk.reader (⟨.text content, span⟩ :: later)).result =
          some (.text content span, later) := rfl
      exact ih.behind (confined_text content span later) (Nat.lt_succ_self _) read
  | @code opener closer delimits first last inside later closed _ ih =>
      have confined : Confined later Chunk.reader _ := confined_code delimits first last closed
      have fewer : later.length <
          (⟨.mark opener, first⟩ :: (inside ++ ⟨.mark closer, last⟩ :: later)).length := by
        simp only [List.length_append, List.length_cons]
        omega
      rcases result_eq_none_or Chunk.reader
        (⟨.mark opener, first⟩ :: (inside ++ ⟨.mark closer, last⟩ :: later)) with
          fails | ⟨chunk, rest, read⟩
      · obtain ⟨miss, found, near⟩ := exists_miss_of_opener delimits fails
        have idle := idle_of_none fails
        refine .stopped (leaves_many_of_idle idle) (by rw [many_of_idle idle]; exact found) ?_
        exact .region delimits first last closed (confined.misses found) near
      · obtain rfl := confined.leaves ⟨chunk, read⟩
        exact ih.behind confined fewer read

end

theorem enclosed_of_tokens {source : String} {found : List (Located Token)}
    (read : QueryTemplate.tokens source = .ok found) : Enclosed found := by
  obtain ⟨pieces, formed, -, rfl⟩ := scanSource_accounted read
  clear read
  generalize 0 = place
  induction pieces generalizing place with
  | nil => exact .nil
  | cons piece pieces ih =>
      obtain ⟨head, tail⟩ := List.forall_mem_cons.mp formed
      rw [List.flatMap_cons, Stretch.tokens_append]
      have later := ih tail (place + Text.byteLength (Stretch.text piece.stretches))
      cases piece with
      | text content => exact .text _ _ later
      | comment body => exact later
      | code opener closer inside =>
          obtain ⟨delimits, each⟩ := head
          rw [Piece.stretches, List.cons_append, Stretch.tokens_token, Stretch.tokens_append,
            Stretch.tokens_token, Stretch.tokens_nil, List.cons_append, List.append_assoc]
          refine .code delimits _ _ (fun token within => ?_) later
          obtain ⟨before, stretch, after, rfl, value, -, -⟩ := Stretch.mem_tokens within
          have holds := each stretch (List.mem_append_right _ List.mem_cons_self)
          rw [Stretch.Inner, value] at holds
          exact holds.1

section

variable {front tail part tokens : List (Located Token)} {miss : Miss} {token : Located Token}

/-- Tokens with which some tokens begin that are read as chunks. -/
def Viable (front : List Token) : Prop :=
  ∃ size tokens chunks, ofTokens size tokens = .ok chunks ∧ front <+: values tokens

theorem leaves_listReader : Leaves listReader tokens [] ↔ Leaves (many reader) tokens [] := by
  constructor
  · rintro ⟨_, read⟩
    obtain ⟨chunks, mid, several, rest⟩ := result_bind_eq_some.mp read
    obtain ⟨_, _, ended, -⟩ := result_bind_eq_some.mp rest
    cases mid with
    | nil => exact ⟨chunks, several⟩
    | cons => cases ended
  · rintro ⟨chunks, several⟩
    exact ⟨chunks, (result_bind_of_some several _).trans rfl⟩

/-- Where tokens are rejected, some are left by the chunks. -/
theorem left_of_rejected (fails : (listReader tokens).result = none) :
    ∃ rest, Leaves (many reader) tokens rest ∧ rest ≠ [] ∧
      (listReader tokens).miss = Miss.join (many reader tokens).miss (some ⟨rest.length, []⟩) := by
  obtain ⟨chunks, rest, several⟩ := result_many_isSome reader tokens
  rw [listReader, result_bind_of_some several] at fails
  rw [listReader, miss_bind_of_some several]
  cases rest with
  | nil => cases fails
  | cons token rest => exact ⟨_, ⟨chunks, several⟩, List.cons_ne_nil _ _, rfl⟩

theorem viable_of_leaves {more : List (Located Token)}
    (leaves : Leaves (many reader) (front ++ more) []) : Viable (values front) := by
  obtain ⟨chunks, read⟩ := leaves_listReader.mpr leaves
  refine ⟨0, front ++ more, chunks, ofTokens_eq_ok.mpr ⟨[], read⟩, ?_⟩
  rw [values_append]
  exact List.prefix_append _ _

/-- The tokens before the furthest miss are viable, and so they are with a mark that was tried. -/
theorem viable_of_miss (fails : (listReader (front ++ tail)).result = none)
    (found : (listReader (front ++ tail)).miss = some miss) (there : tail.length = miss.remaining)
    (tried : Tried miss.expected part) : Viable (values (front ++ part)) := by
  obtain ⟨rest, leaves, -, joined⟩ := left_of_rejected fails
  have predictive := predictive_many ((front ++ tail).length + 1)
  have small := Nat.lt_succ_self (front ++ tail).length
  rw [joined] at found
  rcases Miss.tried_of_join found tried with
    ⟨early, here, level, tried⟩ | ⟨late, last, level, tried, untried⟩
  · obtain ⟨word, ends⟩ := predictive.hopes small here (there.trans level.symm) tried
    have whole := ends front [] rfl rfl
    rw [← List.append_assoc] at whole
    exact viable_of_leaves whole
  · obtain rfl := Option.some.inj last
    have level : rest.length = miss.remaining := level
    obtain rfl : part = [] := tried.resolve_right fun ⟨_, within, _⟩ => nomatch within
    have plain : ∀ wanted ∈ ([] : List Mark), wanted.IsPlain := fun _ within => nomatch within
    have blind := Miss.blind_of_untried there plain untried []
    obtain ⟨kept, rfl⟩ := exists_kept (predictive.suffix small leaves) (by omega)
    rw [List.length_append] at level
    obtain rfl : kept = [] := List.eq_nil_of_length_eq_zero (by omega)
    obtain ⟨kept', same, leaves'⟩ := predictive.reads small rfl blind leaves
    obtain rfl := List.map_eq_nil_iff.mp same
    rw [List.append_nil]
    exact viable_of_leaves leaves'

/-- With the token at the furthest miss the tokens are not viable. -/
theorem not_viable_of_miss (fails : (listReader (front ++ token :: tail)).result = none)
    (found : (listReader (front ++ token :: tail)).miss = some miss)
    (there : (token :: tail).length = miss.remaining) : ¬Viable (values (front ++ [token])) := by
  rintro ⟨size, tokens, chunks, accepted, more, split⟩
  obtain ⟨rest, leaves, left, joined⟩ := left_of_rejected fails
  have predictive := predictive_many ((front ++ token :: tail).length + 1)
  have small := Nat.lt_succ_self (front ++ token :: tail).length
  rw [values_append, List.append_assoc] at split
  obtain ⟨front', other, rfl, same, next⟩ := values_eq_append split.symm
  have blind : Miss.Blind (Miss.join (many reader (front ++ token :: tail)).miss
      (some ⟨rest.length, []⟩)) (token :: tail) other := by
    rw [← joined, found]
    rintro _ ⟨⟩
    refine ⟨Nat.le_of_eq there, fun _ => Or.inl ?_⟩
    rw [next]
    rfl
  have long := (blind.of_join.2 _ rfl).1
  obtain ⟨kept, rfl⟩ := exists_kept (predictive.suffix small leaves) long
  obtain ⟨kept', -, several, read⟩ := predictive.reads small same blind.of_join.1 leaves
  obtain ⟨_, whole⟩ := ofTokens_eq_ok.mp accepted
  rw [listReader, result_bind_of_some read] at whole
  obtain ⟨_, _, ended, -⟩ := result_bind_eq_some.mp whole
  have none : kept' ++ other = [] := by
    generalize kept' ++ other = left at ended
    cases left with
    | nil => rfl
    | cons => cases ended
  rw [(List.append_eq_nil_iff.mp none).2] at next
  cases next

theorem Viable.of_prefix {front more : List Token} (viable : Viable more)
    (starts : front <+: more) : Viable front := by
  obtain ⟨size, tokens, chunks, accepted, whole⟩ := viable
  exact ⟨size, tokens, chunks, accepted, starts.trans whole⟩

/-- Tokens from a source are rejected in a region before which all are read as chunks. -/
theorem stopsIn_of_rejected (enclosed : Enclosed tokens)
    (fails : (listReader tokens).result = none) :
    ∃ miss front region, (listReader tokens).miss = some miss ∧ tokens = front ++ region ∧
      StopsIn region miss.remaining := by
  obtain ⟨rest, leaves, -, joined⟩ := left_of_rejected fails
  cases enclosed.settles with
  | whole whole =>
      obtain ⟨_, read⟩ := leaves_listReader.mpr whole
      rw [fails] at read
      cases read
  | @stopped region miss leaves' found stops =>
      have same : rest = region := by
        obtain ⟨_, read⟩ := leaves
        obtain ⟨_, read'⟩ := leaves'
        exact (Prod.mk.inj (Option.some.inj (read.symm.trans read'))).2
      obtain ⟨front, split⟩ :=
        (predictive_many (tokens.length + 1)).suffix (Nat.lt_succ_self _) leaves'
      refine ⟨miss, front, region, ?_, split.symm, stops⟩
      rw [joined, found, same]
      exact Miss.join_of_nearer fun late last => by
        cases last
        exact stops.lt_length

/-- Tokens from a source are rejected at one of them. -/
theorem miss_of_rejected (enclosed : Enclosed tokens)
    (fails : (listReader tokens).result = none) :
    ∃ miss, (listReader tokens).miss = some miss ∧ 0 < miss.remaining ∧
      miss.remaining ≤ tokens.length := by
  obtain ⟨miss, front, region, found, rfl, stops⟩ := stopsIn_of_rejected enclosed fails
  have short := stops.lt_length
  refine ⟨miss, found, stops.pos, ?_⟩
  rw [List.length_append]
  omega

theorem ofTokens_of_miss {size : Nat} (fails : (listReader tokens).result = none)
    (found : (listReader tokens).miss = some miss)
    (here : tokens[tokens.length - miss.remaining]? = some token) :
    ofTokens size tokens = .error (.unexpected (some token.value) miss.expected token.span) := by
  unfold ofTokens
  split
  next read => rw [read] at fails; cases fails
  next read =>
    rw [read] at found
    subst found
    simp [errorAt, here]

/-- A source that is within the limits and is not made of chunks is rejected at the end of the
longest part of its tokens with which chunks can begin, whatever tags are known. With any of the
marks that are expected in place of the token there, chunks can begin as well. -/
theorem rejected_after_longest_viable {source : String} {found : List (Located Token)}
    (read : QueryTemplate.tokens source = .ok found) (shallow : Nesting.start.check found = .ok ())
    (rejected : ∀ chunks, ofTokens source.utf8ByteSize found ≠ .ok chunks) :
    ∃ k token expected, found[k]? = some token ∧
      (∀ grammars, Template.parse grammars source =
        .error (.unexpected (some token.value) expected token.span)) ∧
      (∀ count, Viable ((values found).take count) ↔ count ≤ k) ∧
      ∀ wanted ∈ expected, Viable ((values found).take k ++ [.mark wanted]) := by
  have fails : (listReader found).result = none := by
    rcases result_eq_none_or listReader found with none | ⟨chunks, rest, accepted⟩
    · exact none
    · exact absurd (ofTokens_eq_ok.mpr ⟨rest, accepted⟩) (rejected chunks)
  obtain ⟨miss, missed, present, within⟩ := miss_of_rejected (enclosed_of_tokens read) fails
  obtain ⟨front, token, tail, rfl, there⟩ : ∃ front token tail, found = front ++ token :: tail ∧
      (token :: tail).length = miss.remaining := by
    refine ⟨found.take (found.length - miss.remaining), found[found.length - miss.remaining],
      found.drop (found.length - miss.remaining + 1), ?_, ?_⟩
    · rw [← List.drop_eq_getElem_cons, List.take_append_drop]
    · rw [← List.drop_eq_getElem_cons, List.length_drop]
      omega
  have here : (front ++ token :: tail)[front.length]? = some token := by simp
  have before : (values (front ++ token :: tail)).take front.length = values front := by
    rw [values_append, ← length_values front, List.take_left]
  have viable : Viable (values front) := by
    have alone := viable_of_miss fails missed there (Or.inl rfl)
    rwa [List.append_nil] at alone
  refine ⟨front.length, token, miss.expected, here, fun grammars => ?_, fun count => ⟨?_, ?_⟩, ?_⟩
  · have error : ofTokens source.utf8ByteSize (front ++ token :: tail) =
        .error (.unexpected (some token.value) miss.expected token.span) := by
      refine ofTokens_of_miss fails missed ?_
      rw [List.length_append, there, Nat.add_sub_cancel, here]
    have stopped : ofSource source =
        .error (.unexpected (some token.value) miss.expected token.span) := by
      simp only [ofSource, read, bind, Except.bind, shallow, error]
    simp only [Template.parse, stopped, bind, Except.bind]
  · intro viable
    refine Nat.le_of_not_lt fun longer => ?_
    refine not_viable_of_miss fails missed there (viable.of_prefix ?_)
    have split : values (front ++ [token]) =
        (values (front ++ token :: tail)).take (front.length + 1) := by
      simp [List.take_append, List.take_of_length_le]
    rw [split]
    exact List.take_prefix_take_left longer
  · intro short
    refine viable.of_prefix ?_
    rw [← before]
    exact List.take_prefix_take_left short
  · intro wanted expected
    have marked := viable_of_miss fails missed there (Or.inr ⟨wanted, expected, rfl⟩)
    rw [before]
    rwa [values_append] at marked

/-- In `{% t x | f(a b) %}` the second name within the parentheses is the first token too many.
Before it the first name, the filter and the parentheses could each be read on. -/
theorem rejected_after_longest_viable_arguments :
    let source := "\x7b% t x | f(a b) %\x7d"
    let found : List (Located Token) := [⟨.mark .tagOpen, ⟨0, 2⟩⟩, ⟨.ident "t", ⟨3, 4⟩⟩,
      ⟨.ident "x", ⟨5, 6⟩⟩, ⟨.mark .pipe, ⟨7, 8⟩⟩, ⟨.ident "f", ⟨9, 10⟩⟩,
      ⟨.mark .parenOpen, ⟨10, 11⟩⟩, ⟨.ident "a", ⟨11, 12⟩⟩, ⟨.ident "b", ⟨13, 14⟩⟩,
      ⟨.mark .parenClose, ⟨14, 15⟩⟩, ⟨.mark .tagClose, ⟨16, 18⟩⟩]
    let operators : List Mark :=
      [.dot, .pipe, .eq, .notEq, .lessEq, .greaterEq, .less, .greater, .andWord, .orWord]
    QueryTemplate.tokens source = .ok found ∧ Nesting.start.check found = .ok () ∧
      (∀ chunks, ofTokens source.utf8ByteSize found ≠ .ok chunks) ∧
      Viable ((values found).take 7) ∧ ¬Viable ((values found).take 8) ∧
      ∀ wanted ∈ operators ++ [.comma, .parenClose],
        Viable ((values found).take 7 ++ [.mark wanted]) := by
  intro source found operators
  let expected := operators ++ [.comma, .comma, .parenClose] ++ operators ++ [.parenClose]
  have read : QueryTemplate.tokens source = .ok found := by
    have scanned : (QueryTemplate.tokens source).toOption = some found := by decide +kernel
    cases result : QueryTemplate.tokens source with
    | error error =>
        rw [result] at scanned
        cases scanned
    | ok read =>
        rw [result] at scanned
        cases scanned
        rfl
  have shallow : Nesting.start.check found = .ok () := rfl
  have fails : (listReader found).result = none := by
    have none : (listReader found).result.isNone = true := by decide +kernel
    exact Option.isNone_iff_eq_none.mp none
  have missed : (listReader found).miss = some ⟨3, expected⟩ := by decide +kernel
  have error : ofTokens source.utf8ByteSize found =
      .error (.unexpected (some (.ident "b")) expected ⟨13, 14⟩) :=
    ofTokens_of_miss fails missed rfl
  have rejected (chunks : List Chunk) : ofTokens source.utf8ByteSize found ≠ .ok chunks := by
    intro accepted
    rw [error] at accepted
    cases accepted
  have stopped : Template.parse (.ofList []) source =
      .error (.unexpected (some (.ident "b")) expected ⟨13, 14⟩) := by
    simp only [Template.parse, ofSource, read, bind, Except.bind, shallow, error]
  obtain ⟨k, token, tried, here, error', longest, marks⟩ :=
    rejected_after_longest_viable read shallow rejected
  have same := (error' _).symm.trans stopped
  simp only [Except.error.injEq, ParseError.unexpected.injEq] at same
  obtain ⟨-, rfl, span⟩ := same
  have place : ∀ k < 10, found[k]?.map (·.span) = some ⟨13, 14⟩ → k = 7 := by decide
  obtain ⟨inside, -⟩ := List.getElem?_eq_some_iff.mp here
  obtain rfl := place k inside (by rw [here, ← span]; rfl)
  have among : operators ++ [.comma, .parenClose] ⊆ expected := by decide
  exact ⟨read, shallow, rejected, (longest 7).mpr (Nat.le_refl 7),
    fun viable => absurd ((longest 8).mp viable) (by decide),
    fun wanted within => marks wanted (among within)⟩

end

end Chunk

end QueryTemplate
