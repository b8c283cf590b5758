import QueryTemplate.Proofs.Reading.Names

set_option autoImplicit false

/- Where tags begin. The place of a tag is that of its `{%`, which its name follows, with nothing
but white space between them. -/

namespace QueryTemplate

namespace Reader

theorem Parts.infix_of_mem {α : Type} {post : α → List (Located Token) → Prop} {values : List α}
    {used : List (Located Token)} (parts : Parts post values used) {value : α}
    (within : value ∈ values) : ∃ own, own <:+: used ∧ post value own := by
  induction parts with
  | nil => cases within
  | @cons _ own _ others head _ ih =>
      rcases List.mem_cons.mp within with rfl | within
      · exact ⟨own, (List.prefix_append own others).isInfix, head⟩
      · obtain ⟨own, part, holds⟩ := ih within
        exact ⟨own, part.trans (List.suffix_append _ others).isInfix, holds⟩

end Reader

namespace Lexer

namespace Stretch

variable {place : Nat} {stretches : List Stretch} {token : Located Token}
  {front later : List (Located Token)}

/-- A token among others is a stretch among others. -/
theorem tokens_eq_append (found : tokens place stretches = front ++ token :: later) :
    ∃ before stretch after, stretches = before ++ stretch :: after ∧
      stretch.token? = some token.value ∧ token.span.start = place + Text.byteLength (text before) ∧
      tokens token.span.stop after = later := by
  induction stretches generalizing place front with
  | nil => exact absurd found.symm (List.append_ne_nil_of_right_ne_nil _ (List.cons_ne_nil _ _))
  | cons stretch rest ih =>
      obtain ⟨chars, _ | value⟩ := stretch
      · rw [tokens_gap] at found
        obtain ⟨before, other, after, rfl, own, start, follow⟩ := ih found
        refine ⟨⟨chars, none⟩ :: before, other, after, rfl, own, ?_, follow⟩
        rw [start, text_cons, Text.byteLength_append, Nat.add_assoc]
      · rw [tokens_token] at found
        cases front with
        | nil =>
            obtain ⟨rfl, rfl⟩ := List.cons.inj found
            exact ⟨[], _, rest, rfl, rfl, rfl, rfl⟩
        | cons first front =>
            obtain ⟨-, found⟩ := List.cons.inj found
            obtain ⟨before, other, after, rfl, own, start, follow⟩ := ih found
            refine ⟨⟨chars, some value⟩ :: before, other, after, rfl, own, ?_, follow⟩
            rw [start, text_cons, Text.byteLength_append, Nat.add_assoc]

/-- The stretches before the first token are none. -/
theorem tokens_eq_cons (found : tokens place stretches = token :: later) :
    ∃ before stretch after, stretches = before ++ stretch :: after ∧
      stretch.token? = some token.value ∧ ∀ gap ∈ before, gap.token? = none := by
  induction stretches generalizing place with
  | nil => cases found
  | cons stretch rest ih =>
      obtain ⟨chars, _ | value⟩ := stretch
      · rw [tokens_gap] at found
        obtain ⟨before, other, after, rfl, own, silent⟩ := ih found
        exact ⟨_, other, after, rfl, own, List.forall_mem_cons.mpr ⟨rfl, silent⟩⟩
      · rw [tokens_token] at found
        obtain ⟨rfl, -⟩ := List.cons.inj found
        exact ⟨[], _, rest, rfl, rfl, List.forall_mem_nil _⟩

end Stretch

/-- Behind the opener of a tag stand the other stretches of its region: before the closer those that
are no tokens are white space. -/
theorem Piece.Formed.behind {piece : Piece} (formed : piece.Formed) {before after : List Stretch}
    {stretch : Stretch} (whole : piece.stretches = before ++ stretch :: after)
    (opens : stretch.token? = some (.mark .tagOpen)) :
    ∃ inside last, after = inside ++ [last] ∧ last.token? ≠ none ∧
      ∀ gap ∈ inside, gap.token? = none → ∀ c ∈ gap.chars, Token.isGap c = true := by
  have within : stretch ∈ piece.stretches := by
    rw [whole]
    exact List.mem_append_right _ List.mem_cons_self
  cases piece with
  | text content =>
      obtain rfl := List.mem_singleton.mp within
      cases opens
  | comment body =>
      obtain rfl := List.mem_singleton.mp within
      cases opens
  | code opener closer inside =>
      obtain ⟨delimits, each⟩ := formed
      rcases List.eq_nil_or_concat after with rfl | ⟨inner, last, rfl⟩
      · obtain ⟨-, same⟩ := List.append_inj' whole rfl
        obtain rfl := (List.cons.inj same).1
        cases opens
        cases delimits
      · rw [List.concat_eq_append, ← List.cons_append, ← List.append_assoc] at whole
        obtain ⟨front, same⟩ := List.append_inj' whole rfl
        obtain rfl := (List.cons.inj same).1
        refine ⟨inner, _, List.concat_eq_append, nofun, fun gap member silent => ?_⟩
        have listed : gap ∈ inside := by
          cases before with
          | nil =>
              obtain ⟨-, rfl⟩ := List.cons.inj front
              exact member
          | cons =>
              obtain ⟨-, rfl⟩ := List.cons.inj front
              exact List.mem_append_right _ (List.mem_cons_of_mem _ member)
        have blank := each gap listed
        rw [Stretch.Inner, silent] at blank
        exact blank

/-- From the opener of a tag to the next token there is only white space. -/
theorem gaps_of_tagOpen {pieces : List Piece} (formed : ∀ piece ∈ pieces, piece.Formed)
    {before gaps after : List Stretch} {stretch next : Stretch}
    (whole : pieces.flatMap Piece.stretches = before ++ stretch :: (gaps ++ next :: after))
    (opens : stretch.token? = some (.mark .tagOpen)) (silent : ∀ gap ∈ gaps, gap.token? = none) :
    ∀ gap ∈ gaps, ∀ c ∈ gap.chars, Token.isGap c = true := by
  induction pieces generalizing before with
  | nil => exact absurd whole.symm (List.append_ne_nil_of_right_ne_nil _ (List.cons_ne_nil _ _))
  | cons piece pieces ih =>
      obtain ⟨first, others⟩ := List.forall_mem_cons.mp formed
      rw [List.flatMap_cons, List.append_eq_append_iff] at whole
      rcases whole with ⟨front, -, later⟩ | ⟨_ | ⟨_, inner⟩, own, later⟩
      · exact ih others later
      · rw [List.nil_append] at later
        exact ih others (later.symm.trans (List.nil_append _).symm)
      · rw [List.cons_append] at later
        obtain ⟨rfl, split⟩ := List.cons.inj later
        obtain ⟨inside, last, rfl, filled, blank⟩ := first.behind own opens
        rw [List.append_assoc, List.append_eq_append_iff] at split
        intro gap member
        refine blank gap ?_ (silent gap member)
        rcases split with ⟨more, rfl, -⟩ | ⟨_ | ⟨_, more⟩, rfl, ends⟩
        · exact List.mem_append_left _ member
        · rwa [List.append_nil] at member
        · obtain ⟨rfl, -⟩ := List.cons.inj ends
          exact absurd (silent last (List.mem_append_right _ List.mem_cons_self)) filled

end Lexer

open Lexer Reader

/-- The tokens of a header are those of its region: the opener, and for a tag its name. -/
theorem Chunk.Derived.tag {name : String} {nameSpan span : Span} {args : List Arg}
    {used : List (Located Token)}
    (derived : Derived (.header (.tag name nameSpan args) span) used) :
    ∃ first rest, used = ⟨.mark .tagOpen, first⟩ :: ⟨.ident name, nameSpan⟩ :: rest ∧
      span.start = first.start := by
  cases derived with
  | header first last derived =>
      cases derived with
      | tag => exact ⟨first, _, rfl, rfl⟩

/-- A `{%` stands at an offset of the source, and behind it, after white space, a name. -/
def TagBegins (source name : String) (offset : Nat) : Prop :=
  ∃ before gap after, source.toList = before ++ '{' :: '%' :: gap ++ name.toList ++ after ∧
    Text.byteLength before = offset ∧ ∀ c ∈ gap, Token.isGap c = true

/-- The place of a tag is where it begins. -/
theorem Template.tagBegins_of_mem {grammars : TagGrammars} {source : String} {template : Template}
    (parsed : parse grammars source = .ok template) {name : String} {nameSpan span : Span}
    {args : List Arg} {body : Option (List Node)}
    (within : .node (.tag name nameSpan args body span) ∈ template.elements) :
    TagBegins source name span.start := by
  obtain ⟨found, chunks, scanned, parts, walk⟩ := exists_walk parsed
  obtain ⟨chunk, member, opened⟩ := walk.opened within
  cases opened
  obtain ⟨own, ⟨front, back, rfl⟩, derived⟩ := parts.infix_of_mem member
  obtain ⟨first, rest, rfl, start⟩ := derived.tag
  obtain ⟨pieces, formed, whole, tokens⟩ := scanSource_accounted scanned
  rw [List.append_assoc] at tokens
  obtain ⟨before, stretch, others, split, opens, place, later⟩ :=
    Stretch.tokens_eq_append tokens.symm
  obtain ⟨gaps, next, after, rfl, named, silent⟩ := Stretch.tokens_eq_cons later
  have spelled {stretch : Stretch} (listed : stretch ∈ pieces.flatMap Piece.stretches)
      {token : Token} (found : stretch.token? = some token) (other : ∀ content, token ≠ .text content) :
      Token.Spelled token stretch.chars := by
    obtain ⟨piece, member, inside⟩ := List.mem_flatMap.mp listed
    obtain ⟨-, ⟨content, same, -⟩ | spelled⟩ := (formed piece member).token inside found
    · exact absurd same (other content)
    · exact spelled
  have opener : stretch.chars = ['{', '%'] :=
    (spelled (by simp [split]) opens nofun).delimiter (by decide)
  have letters : next.chars = name.toList :=
    (Token.spelled_ident.mp (spelled (by simp [split]) named nofun)).1
  refine ⟨Stretch.text before, Stretch.text gaps, Stretch.text after, ?_, ?_, ?_⟩
  · rw [whole, split]
    simp [opener, letters]
  · rw [start, place, Nat.zero_add]
  · intro c within
    obtain ⟨gap, member, inside⟩ := List.mem_flatMap.mp within
    exact gaps_of_tagOpen formed split opens silent gap member c inside

end QueryTemplate
