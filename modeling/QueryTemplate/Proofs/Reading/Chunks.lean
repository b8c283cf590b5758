import QueryTemplate.Chunk.Reader
import QueryTemplate.Proofs.Reading.Accepted
import QueryTemplate.Proofs.Reading.Results
import QueryTemplate.Proofs.Template.Flattening

set_option autoImplicit false

/- The grammar of chunks as a relation between tokens and what is read from them, places included:
the arguments of tags, the headers, and the regions that they stand in. -/

namespace QueryTemplate

open Reader
open QueryTemplate.Expr (Accepts accepts_ident accepts_reader)

universe u v

theorem eq_ok_iff_toOption {ε : Type u} {α : Type v} {result : Except ε α} {value : α} :
    result = .ok value ↔ result.toOption = some value := by
  cases result <;> simp [Except.toOption]

theorem exists_ok_of_any {ε : Type u} {α : Type v} {result : Except ε α} {test : α → Bool}
    (passes : result.toOption.any test = true) :
    ∃ value, result = .ok value ∧ test value = true := by
  obtain ⟨value, found, passes⟩ := (Option.any_eq_true ..).mp passes
  exact ⟨value, eq_ok_iff_toOption.mpr found, passes⟩

/-- The tokens are an argument of a tag. -/
inductive Arg.Derived : Arg → List (Located Token) → Prop
  | positional {value : Expr} {used : List (Located Token)}
      (derived : Expr.Derived .disjunction value used) : Derived (.positional value) used
  | keyword (key : String) (place sign : Span) {value : Expr} {used : List (Located Token)}
      (derived : Expr.Derived .disjunction value used) :
      Derived (.keyword key place value) (⟨.ident key, place⟩ :: ⟨.mark .assign, sign⟩ :: used)

/-- An argument, and the comma that may follow it. -/
inductive Arg.Listed : Arg → List (Located Token) → Prop
  | alone {arg : Arg} {used : List (Located Token)} (derived : arg.Derived used) : Listed arg used
  | comma {arg : Arg} {used : List (Located Token)} (derived : arg.Derived used) (sign : Span) :
      Listed arg (used ++ [⟨.mark .comma, sign⟩])

/-- The tokens are a header. -/
inductive Header.Derived : Header → List (Located Token) → Prop
  | branch (first : Span) {condition : Expr} {used : List (Located Token)}
      (derived : Expr.Derived .disjunction condition used) :
      Derived (.branch condition) (⟨.mark .ifWord, first⟩ :: used)
  | elif (first : Span) {condition : Expr} {used : List (Located Token)}
      (derived : Expr.Derived .disjunction condition used) :
      Derived (.elif condition) (⟨.mark .elifWord, first⟩ :: used)
  | otherwise (place : Span) : Derived .otherwise [⟨.mark .elseWord, place⟩]
  | endBranch (place : Span) : Derived .endBranch [⟨.mark .endifWord, place⟩]
  | loop (first : Span) (var : String) (place sign : Span) {iterable : Expr}
      {used : List (Located Token)} (derived : Expr.Derived .disjunction iterable used) :
      Derived (.loop var place iterable)
        (⟨.mark .forWord, first⟩ :: ⟨.ident var, place⟩ :: ⟨.mark .inWord, sign⟩ :: used)
  | endLoop (place : Span) : Derived .endLoop [⟨.mark .endforWord, place⟩]
  | assign (first : Span) (var : String) (place sign : Span) {value : Expr}
      {used : List (Located Token)} (derived : Expr.Derived .disjunction value used) :
      Derived (.assign var place value)
        (⟨.mark .setWord, first⟩ :: ⟨.ident var, place⟩ :: ⟨.mark .assign, sign⟩ :: used)
  | tag (name : String) (place : Span) {args : List Arg} {used : List (Located Token)}
      (parts : Parts Arg.Listed args used) :
      Derived (.tag name place args) (⟨.ident name, place⟩ :: used)

theorem Arg.Listed.value {arg : Arg} {used : List (Located Token)} (listed : arg.Listed used) :
    ∃ own, own.Sublist used ∧ Expr.Derived .disjunction arg.value own := by
  have alone {used : List (Located Token)} (derived : arg.Derived used) :
      ∃ own, own.Sublist used ∧ Expr.Derived .disjunction arg.value own := by
    cases derived with
    | positional derived => exact ⟨_, .refl _, derived⟩
    | keyword key place sign derived => exact ⟨_, .cons _ (List.sublist_cons_self _ _), derived⟩
  cases listed with
  | alone derived => exact alone derived
  | comma derived sign =>
      obtain ⟨own, part, value⟩ := alone derived
      exact ⟨own, part.trans (List.sublist_append_left _ _), value⟩

/-- The expressions of a header are derived from some of its tokens. -/
theorem Header.Derived.exprs {header : Header} {used : List (Located Token)}
    (derived : header.Derived used) :
    ∀ expr ∈ header.exprs, ∃ own, own.Sublist used ∧ Expr.Derived .disjunction expr own := by
  cases derived with
  | branch _ derived => exact List.forall_mem_singleton.mpr ⟨_, List.sublist_cons_self _ _, derived⟩
  | elif _ derived => exact List.forall_mem_singleton.mpr ⟨_, List.sublist_cons_self _ _, derived⟩
  | otherwise => exact List.forall_mem_nil _
  | endBranch => exact List.forall_mem_nil _
  | loop _ _ _ _ derived =>
      exact List.forall_mem_singleton.mpr ⟨_, .cons _ (.cons _ (List.sublist_cons_self _ _)), derived⟩
  | endLoop => exact List.forall_mem_nil _
  | assign _ _ _ _ derived =>
      exact List.forall_mem_singleton.mpr ⟨_, .cons _ (.cons _ (List.sublist_cons_self _ _)), derived⟩
  | tag _ _ parts =>
      refine List.forall_mem_map.mpr fun arg member => ?_
      obtain ⟨inner, part, listed⟩ := parts.exists_of_mem member
      obtain ⟨own, part', value⟩ := listed.value
      exact ⟨own, (part'.trans part).cons _, value⟩

namespace Header

theorem accepts_arg : Accepts arg Arg.Listed := by
  have keyword : Accepts keywordArg Arg.Derived := by
    refine accepts_ident.bind fun key front named => ?_
    refine (Takes.mark .assign).bind fun sign mark taken => ?_
    refine accepts_reader.bind fun value used derived => Takes.pure ?_
    subst named taken
    rw [List.append_nil]
    exact .keyword key.value key.span sign derived
  have positional : Accepts positionalArg Arg.Derived := by
    refine accepts_reader.bind fun value used derived => Takes.pure ?_
    rw [List.append_nil]
    exact .positional derived
  refine (keyword.or positional).bind fun arg used derived => ?_
  refine (Takes.optional (Takes.mark .comma)).bind fun comma back taken => Takes.pure ?_
  rw [List.append_nil]
  cases comma with
  | none =>
      subst taken
      rw [List.append_nil]
      exact .alone derived
  | some sign =>
      subst taken
      exact .comma derived sign

theorem accepts_wordHeader (word : Mark) {header : Header}
    (derived : ∀ place, header.Derived [⟨.mark word, place⟩]) :
    Accepts (wordHeader word header) Derived := by
  refine (Takes.mark word).bind fun place used taken => Takes.pure ?_
  rw [List.append_nil, taken]
  exact derived place

/-- A word and an expression. -/
theorem accepts_condition {word : Mark} {make : Expr → Header}
    (derived : ∀ first {condition used}, Expr.Derived .disjunction condition used →
      (make condition).Derived (⟨.mark word, first⟩ :: used)) :
    Accepts (do
      let _ ← mark word
      let condition ← Expr.reader
      return make condition) Derived := by
  refine (Takes.mark word).bind fun first front taken => ?_
  refine accepts_reader.bind fun condition used inner => Takes.pure ?_
  rw [List.append_nil, taken]
  exact derived first inner

/-- A word, a name, a sign and an expression. -/
theorem accepts_binding {word sign : Mark} {make : Located String → Expr → Header}
    (derived : ∀ first name between {value used}, Expr.Derived .disjunction value used →
      (make name value).Derived
        (⟨.mark word, first⟩ :: ⟨.ident name.value, name.span⟩ :: ⟨.mark sign, between⟩ :: used)) :
    Accepts (do
      let _ ← mark word
      let name ← ident
      let _ ← mark sign
      let value ← Expr.reader
      return make name value) Derived := by
  refine (Takes.mark word).bind fun first front taken => ?_
  refine accepts_ident.bind fun name spelled named => ?_
  refine (Takes.mark sign).bind fun between back met => ?_
  refine accepts_reader.bind fun value used inner => Takes.pure ?_
  subst taken named met
  rw [List.append_nil]
  exact derived first name between inner

theorem accepts_tagHeader : Accepts tagHeader Derived := by
  refine accepts_ident.bind fun name front named => ?_
  refine (Takes.many accepts_arg).bind fun args used parts => Takes.pure ?_
  rw [List.append_nil, named]
  exact .tag name.value name.span parts

theorem accepts_reader : Accepts reader Derived := by
  apply Takes.choice
  intro reader within
  simp only [List.mem_cons, List.not_mem_nil, or_false] at within
  rcases within with rfl | rfl | rfl | rfl | rfl | rfl | rfl | rfl
  · exact accepts_condition .branch
  · exact accepts_condition .elif
  · exact accepts_wordHeader .elseWord .otherwise
  · exact accepts_wordHeader .endifWord .endBranch
  · exact accepts_binding fun first name between => .loop first name.value name.span between
  · exact accepts_wordHeader .endforWord .endLoop
  · exact accepts_binding fun first name between => .assign first name.value name.span between
  · exact accepts_tagHeader

end Header

/-- The tokens are a chunk, which reaches from the first of them to the last. -/
inductive Chunk.Derived : Chunk → List (Located Token) → Prop
  | text (content : String) (span : Span) : Derived (.text content span) [⟨.text content, span⟩]
  | output (first last : Span) {expr : Expr} {used : List (Located Token)}
      (derived : Expr.Derived .disjunction expr used) :
      Derived (.output expr (first.through last))
        (⟨.mark .outputOpen, first⟩ :: (used ++ [⟨.mark .outputClose, last⟩]))
  | header (first last : Span) {header : Header} {used : List (Located Token)}
      (derived : header.Derived used) :
      Derived (.header header (first.through last))
        (⟨.mark .tagOpen, first⟩ :: (used ++ [⟨.mark .tagClose, last⟩]))

/-- The expressions of a chunk are derived from some of its tokens. -/
theorem Chunk.Derived.exprs {chunk : Chunk} {used : List (Located Token)}
    (derived : chunk.Derived used) :
    ∀ expr ∈ chunk.exprs, ∃ own, own.Sublist used ∧ Expr.Derived .disjunction expr own := by
  cases derived with
  | text => exact List.forall_mem_nil _
  | output _ _ derived =>
      exact List.forall_mem_singleton.mpr ⟨_, .cons _ (List.sublist_append_left _ _), derived⟩
  | header _ _ derived =>
      intro expr within
      obtain ⟨own, part, value⟩ := derived.exprs expr within
      exact ⟨own, (part.trans (List.sublist_append_left _ _)).cons _, value⟩

namespace Chunk

theorem accepts_textReader : Accepts textReader Derived := by
  refine (Takes.accept _).bind fun content used taken => Takes.pure ?_
  obtain ⟨⟨token, span⟩, rfl, -, selected, place⟩ := taken
  split at selected
  next spelled =>
    cases selected
    cases spelled
    rw [← place]
    exact .text _ _
  next => cases selected

theorem accepts_outputReader : Accepts outputReader Derived := by
  refine (Takes.mark .outputOpen).bind fun first front opened => ?_
  refine accepts_reader.bind fun expr used derived => ?_
  refine (Takes.mark .outputClose).bind fun last back closed => Takes.pure ?_
  subst opened closed
  rw [List.append_nil]
  exact .output first last derived

theorem accepts_tagReader : Accepts tagReader Derived := by
  refine (Takes.mark .tagOpen).bind fun first front opened => ?_
  refine Header.accepts_reader.bind fun header used derived => ?_
  refine (Takes.mark .tagClose).bind fun last back closed => Takes.pure ?_
  subst opened closed
  rw [List.append_nil]
  exact .header first last derived

theorem accepts_reader : Accepts reader Derived := by
  apply Takes.choice
  intro reader within
  simp only [List.mem_cons, List.not_mem_nil, or_false] at within
  rcases within with rfl | rfl | rfl
  · exact accepts_textReader
  · exact accepts_outputReader
  · exact accepts_tagReader

theorem ofTokens_eq_ok {size : Nat} {tokens : List (Located Token)} {chunks : List Chunk} :
    ofTokens size tokens = .ok chunks ↔
      ∃ rest, (listReader tokens).result = some (chunks, rest) := by
  unfold ofTokens
  split
  next found => simp [found]
  next found => simp [found]

/-- The chunks of tokens are derived from all of them. -/
theorem parts_ofTokens {size : Nat} {tokens : List (Located Token)} {chunks : List Chunk}
    (read : ofTokens size tokens = .ok chunks) : Parts Derived chunks tokens := by
  obtain ⟨rest, listed⟩ := ofTokens_eq_ok.mp read
  obtain ⟨several, mid, found, ended⟩ := result_bind_eq_some.mp listed
  obtain ⟨_, last, finished, same⟩ := result_bind_eq_some.mp ended
  cases same
  obtain ⟨used, rfl, parts⟩ :=
    Takes.many accepts_reader tokens chunks mid (fun _ _ => trivial) found
  cases mid with
  | nil => rwa [List.append_nil]
  | cons => cases finished

theorem ofSource_eq_ok {source : String} {chunks : List Chunk} :
    ofSource source = .ok chunks ↔ ∃ tokens, QueryTemplate.tokens source = .ok tokens ∧
      Nesting.start.check tokens = .ok () ∧
      ofTokens source.utf8ByteSize tokens = .ok chunks := by
  unfold ofSource
  rcases scanned : QueryTemplate.tokens source with error | tokens
  · simp [bind, Except.bind]
  · rcases checked : Nesting.start.check tokens with error | _ <;>
      simp [bind, Except.bind, checked]

theorem ofSource_eq_error {source : String} {error : ParseError} :
    ofSource source = .error error ↔ QueryTemplate.tokens source = .error error ∨
      ∃ tokens, QueryTemplate.tokens source = .ok tokens ∧
        (Nesting.start.check tokens = .error error ∨ Nesting.start.check tokens = .ok () ∧
          ofTokens source.utf8ByteSize tokens = .error error) := by
  unfold ofSource
  rcases scanned : QueryTemplate.tokens source with other | tokens
  · simp [bind, Except.bind]
  · rcases checked : Nesting.start.check tokens with other | _ <;>
      simp [bind, Except.bind, checked]

end Chunk

end QueryTemplate
