import QueryTemplate.Proofs.Lexing.Scans
import QueryTemplate.Proofs.Lexing.Stretches

set_option autoImplicit false

/- Sources as pieces: raw text, comments and regions of code. The lexer accounts for every
character: a source that it accepts is a list of pieces, and its tokens are those of the pieces. -/

namespace QueryTemplate.Lexer

/-- In a region the stretches between opener and closer are tokens and gaps. -/
inductive Piece
  | text (content : List Char)
  | comment (body : List Char)
  | code (opener closer : Mark) (inside : List Stretch)

/-- After a brace these characters open a region or a comment. -/
def openings : List Char := ['{', '%', '#']

/-- No region or comment opens within the text. -/
def Raw (content : List Char) : Prop := ∀ c ∈ openings, ¬['{', c] <:+: content

namespace Stretch

/-- A stretch of a region before its closer: white space, or a token other than the closer. -/
def Inner (closer : Mark) (stretch : Stretch) : Prop :=
  match stretch.token? with
  | none => ∀ c ∈ stretch.chars, Token.isGap c = true
  | some token => token ≠ .mark closer ∧ Token.Spelled token stretch.chars

end Stretch

namespace Piece

def stretches : Piece → List Stretch
  | text content => [⟨content, some (.text (String.ofList content))⟩]
  | comment body => [⟨'{' :: '#' :: body ++ ['#', '}'], none⟩]
  | code opener closer inside =>
    ⟨opener.spelling, some (.mark opener)⟩ :: inside ++ [⟨closer.spelling, some (.mark closer)⟩]

/-- Texts are not empty and open nothing. A comment ends with the first `#}` after its opener, and
a region with the first token that is its closer. -/
def Formed : Piece → Prop
  | text content => content ≠ [] ∧ Raw content
  | comment body => ¬['#', '}'] <:+: body ++ ['#']
  | code opener closer inside => Delimits opener closer ∧ ∀ stretch ∈ inside, stretch.Inner closer

end Piece

theorem Delimits.symbol {opener closer : Mark} (delimits : Delimits opener closer) :
    ∀ entry ∈ Mark.words, entry.2 ≠ closer := by
  cases delimits <;> decide

theorem utf8Size_isGap {c : Char} (gap : Token.isGap c = true) : c.utf8Size = 1 := by
  simp only [Token.isGap, Bool.or_eq_true, beq_iff_eq] at gap
  rcases gap with ((rfl | rfl) | rfl) | rfl <;> rfl

/-- A region that is read consists of inner stretches and its closer, from the place at hand up to
the place where it stops. -/
theorem ReadsRegion.stretches {region : Region} {closer : Mark}
    (closes : region.closer? = some closer) (symbol : ∀ entry ∈ Mark.words, entry.2 ≠ closer)
    {place stop : Nat} {chars rest : List Char} {tokens : List (Located Token)}
    (read : ReadsRegion region place chars tokens stop rest) :
    ∃ inside : List Stretch, (∀ stretch ∈ inside, stretch.Inner closer) ∧
      (let all := inside ++ [⟨closer.spelling, some (.mark closer)⟩]
      chars = Stretch.text all ++ rest ∧ stop = place + Text.byteLength (Stretch.text all) ∧
        tokens = Stretch.tokens place all) := by
  induction read with
  | @gap place stop first chars rest tokens gap _ ih =>
      obtain ⟨inside, each, whole, rfl, rfl⟩ := ih
      have blank : Stretch.Inner closer ⟨[first], none⟩ := by
        intro c within
        rwa [List.mem_singleton.mp within]
      have wide := utf8Size_isGap gap
      refine ⟨⟨[first], none⟩ :: inside, List.forall_mem_cons.mpr ⟨blank, each⟩, ?_, ?_, ?_⟩
      · rw [List.cons_append, Stretch.text_cons, List.append_assoc, ← whole]
        rfl
      · simp only [List.cons_append, Stretch.text_cons, Text.byteLength_append,
          Text.byteLength_cons, Text.byteLength_nil]
        omega
      · rw [List.cons_append, Stretch.tokens_gap]
        simp only [Text.byteLength_cons, Text.byteLength_nil, wide]
  | closer place scans ends =>
      rw [closes] at ends
      cases ends
      have same := (Token.spelled_scan scans).delimiter symbol
      refine ⟨[], List.forall_mem_nil _, ?_, ?_, ?_⟩
      · rw [List.nil_append, Stretch.text_cons, ← same]
        simp
      · simp [← same]
      · rw [List.nil_append, Stretch.tokens_token, ← same]
        rfl
  | @token place stop first chars rest token count tokens scans goes _ ih =>
      obtain ⟨inside, each, later, rfl, rfl⟩ := ih
      have other : Stretch.Inner closer ⟨first :: chars.take count, some token⟩ := by
        refine ⟨fun same => goes ?_, Token.spelled_scan scans⟩
        rw [closes, same]
        rfl
      refine ⟨⟨first :: chars.take count, some token⟩ :: inside,
        List.forall_mem_cons.mpr ⟨other, each⟩, ?_, ?_, ?_⟩
      · rw [List.cons_append, Stretch.text_cons, List.append_assoc, ← later]
        simp
      · rw [List.cons_append, Stretch.text_cons, Text.byteLength_append, Nat.add_assoc]
      · rw [List.cons_append, Stretch.tokens_token]

/-- An opener and a region that is read after it are a piece. -/
theorem code_of_scanRegion {region : Region} {opener closer : Mark}
    (delimits : Delimits opener closer) (closes : region.closer? = some closer) {place : Nat}
    {span : Span} {chars : List Char} {scanned : Scanned chars}
    (read : scanRegion region span (place + 2) chars = .ok scanned) :
    ∃ piece : Piece, piece.Formed ∧
      opener.spelling ++ chars = Stretch.text piece.stretches ++ scanned.rest ∧
      scanned.stop = place + Text.byteLength (Stretch.text piece.stretches) ∧
      ⟨.mark opener, ⟨place, place + 2⟩⟩ :: scanned.tokens =
        Stretch.tokens place piece.stretches := by
  obtain ⟨inside, each, whole, stop, tokens⟩ :=
    (readsRegion_of_eq_ok read).stretches closes delimits.symbol
  have wide : Text.byteLength opener.spelling = 2 := by cases delimits <;> rfl
  refine ⟨.code opener closer inside, ⟨delimits, each⟩, ?_, ?_, ?_⟩
  · rw [Piece.stretches, List.cons_append, Stretch.text_cons, List.append_assoc, ← whole]
  · rw [Piece.stretches, List.cons_append, Stretch.text_cons, Text.byteLength_append, wide, stop,
      Nat.add_assoc]
  · rw [Piece.stretches, List.cons_append, Stretch.tokens_token, wide, tokens]

theorem raw_nil : Raw [] := fun _ _ within => nomatch List.infix_nil.mp within

theorem Raw.cons {c : Char} {content : List Char} (raw : Raw content)
    (shut : c = '{' → ∀ d ∈ openings, content.head? ≠ some d) : Raw (c :: content) := by
  intro d opens within
  rcases List.infix_cons_iff.mp within with front | inner
  · obtain ⟨brace, next⟩ := List.cons_prefix_cons.mp front
    exact shut brace.symm d opens (List.singleton_prefix_iff_head?_eq_some.mp next)
  · exact raw d opens inner

theorem raw_splitText (chars : List Char) : Raw (splitText chars).1 := by
  fun_induction splitText chars with
  | case1 => exact raw_nil
  | case2 => exact raw_nil
  | case3 c rest other text after found ih =>
      rw [found] at ih
      refine ih.cons fun _ d opens first => other ?_
      have whole := splitText_append (c :: rest)
      rw [found] at whole
      obtain ⟨text, rfl⟩ := List.head?_eq_some_iff.mp first
      cases whole
      simpa [openings] using opens
  | case4 c rest other text after found ih =>
      rw [found] at ih
      refine ih.cons fun brace d _ first => ?_
      have whole := splitText_append rest
      rw [found] at whole
      obtain ⟨text, rfl⟩ := List.head?_eq_some_iff.mp first
      exact other d (text ++ after) brace whole.symm

/-- A comment is skipped through the first `#}` after its opener. -/
theorem skipComment_eq_some {place stop : Nat} {chars after : List Char}
    (skipped : skipComment place chars = some (stop, after)) :
    ∃ body, chars = body ++ '#' :: '}' :: after ∧
      stop = place + Text.byteLength (body ++ ['#', '}']) ∧ ¬['#', '}'] <:+: body ++ ['#'] := by
  fun_induction skipComment place chars with
  | case1 place rest =>
      cases skipped
      exact ⟨[], rfl, rfl, by decide⟩
  | case2 place c rest other ih =>
      obtain ⟨body, rfl, rfl, first⟩ := ih skipped
      refine ⟨c :: body, rfl, ?_, fun within => ?_⟩
      · simp only [List.cons_append, Text.byteLength_cons, Text.byteLength_append]
        omega
      · rcases List.infix_cons_iff.mp within with front | inner
        · obtain ⟨rfl, next⟩ := List.cons_prefix_cons.mp front
          obtain ⟨tail, second⟩ := next
          cases body with
          | nil => cases second
          | cons d body =>
              cases second
              exact other _ rfl rfl
        · exact first inner
  | case3 => cases skipped

/-- Characters from a place on are pieces, and the tokens are those of the pieces. -/
def Accounted (place : Nat) (chars : List Char) (found : List (Located Token)) : Prop :=
  ∃ pieces : List Piece, (∀ piece ∈ pieces, piece.Formed) ∧
    chars = Stretch.text (pieces.flatMap Piece.stretches) ∧
    found = Stretch.tokens place (pieces.flatMap Piece.stretches)

namespace Accounted

variable {place : Nat} {chars : List Char} {found : List (Located Token)}

theorem nil : Accounted place [] [] := ⟨[], fun _ within => (nomatch within), rfl, rfl⟩

theorem cons {piece : Piece} (formed : piece.Formed)
    (rest : Accounted (place + Text.byteLength (Stretch.text piece.stretches)) chars found) :
    Accounted place (Stretch.text piece.stretches ++ chars)
      (Stretch.tokens place piece.stretches ++ found) := by
  obtain ⟨pieces, each, whole, tokens⟩ := rest
  refine ⟨piece :: pieces, List.forall_mem_cons.mpr ⟨formed, each⟩, ?_, ?_⟩
  · rw [List.flatMap_cons, Stretch.text_append, whole]
  · rw [List.flatMap_cons, Stretch.tokens_append, tokens]

/-- No token stands for an empty text. -/
theorem text {content : List Char} (raw : Raw content)
    (rest : Accounted (place + Text.byteLength content) chars found) :
    Accounted place (content ++ chars) (textToken place content ++ found) := by
  unfold textToken
  split
  next empty =>
    subst empty
    exact rest
  next present =>
    have whole : Stretch.text (Piece.text content).stretches = content := List.append_nil _
    rw [← whole] at rest
    have formed : (Piece.text content).Formed := ⟨present, raw⟩
    have accounted := cons formed rest
    rwa [whole] at accounted

theorem comment {body : List Char} (first : ¬['#', '}'] <:+: body ++ ['#'])
    (rest : Accounted (place + 2 + Text.byteLength (body ++ ['#', '}'])) chars found) :
    Accounted place ('{' :: '#' :: body ++ '#' :: '}' :: chars) found := by
  have formed : (Piece.comment body).Formed := first
  have whole : Stretch.text (Piece.comment body).stretches = '{' :: '#' :: body ++ ['#', '}'] :=
    List.append_nil _
  have wide : Text.byteLength ('{' :: '#' :: body ++ ['#', '}']) =
      2 + Text.byteLength (body ++ ['#', '}']) := by
    rw [List.cons_append, List.cons_append, Text.byteLength_cons, Text.byteLength_cons,
      ← Nat.add_assoc]
    rfl
  have accounted := cons formed (by rwa [whole, wide, ← Nat.add_assoc])
  have silent : Stretch.tokens place (Piece.comment body).stretches = [] := rfl
  rw [whole, silent, List.nil_append] at accounted
  simpa using accounted

theorem code {region : Region} {opener closer : Mark} (delimits : Delimits opener closer)
    (closes : region.closer? = some closer) {span : Span} {scanned : Scanned chars}
    (read : scanRegion region span (place + 2) chars = .ok scanned)
    (rest : Accounted scanned.stop scanned.rest found) :
    Accounted place (opener.spelling ++ chars)
      (⟨.mark opener, ⟨place, place + 2⟩⟩ :: scanned.tokens ++ found) := by
  obtain ⟨piece, formed, whole, stop, tokens⟩ := code_of_scanRegion delimits closes read
  rw [stop] at rest
  rw [whole, tokens]
  exact cons formed rest

theorem splitText {rest : List Char} (split : (splitText chars).2 = rest)
    (later : Accounted (place + Text.byteLength (Lexer.splitText chars).1) rest found) :
    Accounted place chars (textToken place (Lexer.splitText chars).1 ++ found) := by
  have accounted := later.text (raw_splitText chars)
  rwa [← split, splitText_append] at accounted

end Accounted

/-- Every character of a source belongs to a piece, and every token comes from one. -/
theorem scanSource_accounted {place : Nat} {chars : List Char} {found : List (Located Token)}
    (read : scanSource place chars = .ok found) : Accounted place chars found := by
  replace read := readsSource_of_eq_ok read
  induction read with
  | text place nothing =>
      rw [← List.append_nil (textToken place _)]
      exact Accounted.nil.splitText nothing
  | code delimits closes opens region _ later =>
      rw [List.append_assoc]
      exact (later.code delimits closes region).splitText opens
  | comment opens skipped _ later =>
      obtain ⟨body, rfl, rfl, first⟩ := skipComment_eq_some skipped
      exact (later.comment first).splitText opens

/-- A token of a piece is a text that opens nothing, or is spelled by its characters. -/
theorem Piece.Formed.token {piece : Piece} (formed : piece.Formed) {stretch : Stretch}
    (within : stretch ∈ piece.stretches) {token : Token} (found : stretch.token? = some token) :
    stretch.chars ≠ [] ∧
      ((∃ content, token = .text content ∧ content.toList = stretch.chars ∧ Raw stretch.chars) ∨
        Token.Spelled token stretch.chars) := by
  have spelled (marked : Token.Spelled token stretch.chars) := And.intro marked.present
    (Or.inr (a := ∃ content, token = .text content ∧ content.toList = stretch.chars ∧
      Raw stretch.chars) marked)
  cases piece with
  | text content =>
      obtain rfl := List.mem_singleton.mp within
      cases found
      exact ⟨formed.1, Or.inl ⟨_, rfl, String.toList_ofList, formed.2⟩⟩
  | comment body =>
      obtain rfl := List.mem_singleton.mp within
      cases found
  | code opener closer inside =>
      simp only [stretches, List.cons_append, List.mem_cons, List.mem_append, List.not_mem_nil,
        or_false] at within
      rcases within with rfl | inner | rfl
      · cases found
        exact spelled (.mark opener)
      · have holds := formed.2 stretch inner
        rw [Stretch.Inner, found] at holds
        exact spelled holds.2
      · cases found
        exact spelled (.mark closer)

end QueryTemplate.Lexer

namespace QueryTemplate

open Lexer

/-- What the span of a token cuts out of the source is not empty, and is how the token is written. -/
theorem exists_slice {source : String} {found : List (Located Token)}
    (read : tokens source = .ok found) {token : Located Token} (within : token ∈ found) :
    ∃ slice, slice ≠ [] ∧
      Text.slice? token.span.start token.span.stop source.toList = some slice ∧
      ((∃ content, token.value = .text content ∧ content.toList = slice ∧ Raw slice) ∨
        Token.Spelled token.value slice) := by
  obtain ⟨pieces, formed, whole, rfl⟩ := scanSource_accounted read
  obtain ⟨stretch, listed, value, slice⟩ := Stretch.slice_token within
  obtain ⟨piece, member, inside⟩ := List.mem_flatMap.mp listed
  obtain ⟨present, spelled⟩ := (formed piece member).token inside value
  exact ⟨stretch.chars, present, whole ▸ slice, spelled⟩

theorem start_lt_stop {source : String} {found : List (Located Token)}
    (read : tokens source = .ok found) {token : Located Token} (within : token ∈ found) :
    token.span.start < token.span.stop := by
  obtain ⟨slice, present, cut, -⟩ := exists_slice read within
  obtain ⟨_, _, _, _, stop⟩ := Text.slice?_eq_some.mp cut
  have wide := Text.byteLength_pos present
  omega

/-- Reading accounts for every byte of a source. The source is made of pieces: texts in which nothing
opens, comments that end with the first `#}` after their opener, and regions that end with the first
token that is their closer and have only white space between their tokens. The tokens are those of the
pieces; each is spelled by the slice that its span cuts out, and ends before the next one begins. -/
theorem tokens_account {source : String} {found : List (Located Token)}
    (read : tokens source = .ok found) :
    (∃ pieces : List Piece, (∀ piece ∈ pieces, piece.Formed) ∧
      source.toList = Stretch.text (pieces.flatMap Piece.stretches) ∧
      found = Stretch.tokens 0 (pieces.flatMap Piece.stretches)) ∧
    (∀ token ∈ found, token.span.start < token.span.stop ∧ ∃ slice,
      Text.slice? token.span.start token.span.stop source.toList = some slice ∧
        ((∃ content, token.value = .text content ∧ content.toList = slice ∧ Raw slice) ∨
          Token.Spelled token.value slice)) ∧
    found.Pairwise fun first second => first.span.stop ≤ second.span.start := by
  have each (token : Located Token) (within : token ∈ found) := exists_slice read within
  have filled (token : Located Token) (within : token ∈ found) := start_lt_stop read within
  obtain ⟨pieces, formed, whole, rfl⟩ := scanSource_accounted read
  refine ⟨⟨pieces, formed, whole, rfl⟩, fun token within => ⟨filled token within, ?_⟩,
    Stretch.pairwise_tokens _ _⟩
  obtain ⟨slice, -, cut, spelled⟩ := each token within
  exact ⟨slice, cut, spelled⟩

/-- The closer in the string literal does not end the region. -/
theorem tokens_account_quoted :
    let source := "é\x7b# x #\x7d\x7b\x7b '\x7d\x7d' \x7d\x7d"
    let found : List (Located Token) := [⟨.text "é", ⟨0, 2⟩⟩, ⟨.mark .outputOpen, ⟨9, 11⟩⟩,
      ⟨.string "\x7d\x7d", ⟨12, 16⟩⟩, ⟨.mark .outputClose, ⟨17, 19⟩⟩]
    tokens source = .ok found ∧
      (∃ pieces : List Piece, (∀ piece ∈ pieces, piece.Formed) ∧
        source.toList = Stretch.text (pieces.flatMap Piece.stretches) ∧
        found = Stretch.tokens 0 (pieces.flatMap Piece.stretches)) ∧
      found.Pairwise fun first second => first.span.stop ≤ second.span.start := by
  intro source found
  have reads : (match tokens source with
      | .ok read => decide (read = found)
      | .error _ => false) = true := by decide +kernel
  split at reads
  next read scanned =>
    obtain rfl := of_decide_eq_true reads
    obtain ⟨pieces, -, ordered⟩ := tokens_account scanned
    exact ⟨scanned, pieces, ordered⟩
  next => cases reads

end QueryTemplate
