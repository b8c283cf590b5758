import QueryTemplate.Proofs.Reading.Chunks
import QueryTemplate.Proofs.Reading.Complete

set_option autoImplicit false

/- Output regions hold exactly the expressions of the grammar: the tokens between an opener and its
closer are read just when they are derived, and the tree that is read is the one that is derived. -/

namespace QueryTemplate

open Reader Grammar

/-- A closer ends the count of a region, and an opener does not add to it. -/
theorem Nesting.check_region (tokens : List (Located Token)) (first last : Span) :
    start.check (⟨.mark .outputOpen, first⟩ :: (tokens ++ [⟨.mark .outputClose, last⟩])) =
      start.check tokens := by
  have ended (n : Nesting) :
      n.check (tokens ++ [⟨.mark .outputClose, last⟩]) = n.check tokens := by
    induction tokens generalizing n with
    | nil => rfl
    | cons token tokens ih => simp only [List.cons_append, check, ih]
  exact ended start

namespace Chunk

variable {tokens : List (Located Token)} {first last : Span} {expr : Expr}

/-- The closer of a region without another closer ends it. -/
theorem closer_last {used after : List (Located Token)} {span : Span}
    (closed : ∀ token ∈ tokens, token.value ≠ .mark .outputClose)
    (split : tokens ++ [⟨.mark .outputClose, last⟩] = used ++ ⟨.mark .outputClose, span⟩ :: after) :
    tokens = used ∧ last = span ∧ after = [] := by
  rcases List.eq_nil_or_concat after with rfl | ⟨inside, token, rfl⟩
  · obtain ⟨same, closer⟩ := List.append_inj' split rfl
    cases closer
    exact ⟨same, rfl, rfl⟩
  · rw [List.concat_eq_append, ← List.cons_append, ← List.append_assoc] at split
    have within := (List.append_inj' split rfl).1
    refine absurd rfl (closed ⟨.mark .outputClose, span⟩ ?_)
    rw [within]
    exact List.mem_append_right _ List.mem_cons_self

/-- What opens as an output is read as nothing else. -/
theorem result_reader_output (first : Span) (rest : List (Located Token)) :
    (reader (⟨.mark .outputOpen, first⟩ :: rest)).result =
      (outputReader (⟨.mark .outputOpen, first⟩ :: rest)).result := by
  have text : (textReader (⟨.mark .outputOpen, first⟩ :: rest)).result = none := rfl
  have tag : (tagReader (⟨.mark .outputOpen, first⟩ :: rest)).result = none :=
    result_bind_of_none (result_mark_of_ne (by simp)) _
  simp only [reader, choice, result_or, text, tag, Option.none_or, Option.or_none]

theorem result_outputReader {chunk : Chunk} {rest after : List (Located Token)} :
    (outputReader (⟨.mark .outputOpen, first⟩ :: rest)).result = some (chunk, after) ↔
      ∃ expr span, (Expr.reader rest).result = some (expr, ⟨.mark .outputClose, span⟩ :: after) ∧
        chunk = .output expr (first.through span) := by
  constructor
  · intro found
    obtain ⟨opener, inside, opened, found⟩ := result_bind_eq_some.mp found
    cases result_mark_eq_some.mp opened
    obtain ⟨expr, closing, read, found⟩ := result_bind_eq_some.mp found
    obtain ⟨span, last, closed, found⟩ := result_bind_eq_some.mp found
    obtain rfl := result_mark_eq_some.mp closed
    cases found
    exact ⟨expr, span, read, rfl⟩
  · rintro ⟨expr, span, read, rfl⟩
    refine (result_bind_of_some (result_mark ..) _).trans ?_
    exact (result_bind_of_some read _).trans (result_bind_of_some (result_mark ..) _)

/-- A region is one output, or it is not read. -/
theorem result_listReader_output (closed : ∀ token ∈ tokens, token.value ≠ .mark .outputClose)
    {chunks : List Chunk} {rest : List (Located Token)} :
    (listReader (⟨.mark .outputOpen, first⟩ :: (tokens ++ [⟨.mark .outputClose, last⟩]))).result =
        some (chunks, rest) ↔
      ∃ expr, (Expr.reader (tokens ++ [⟨.mark .outputClose, last⟩])).result =
          some (expr, [⟨.mark .outputClose, last⟩]) ∧
        chunks = [.output expr (first.through last)] ∧ rest = [] := by
  have alone {expr : Expr} (read : (Expr.reader (tokens ++ [⟨.mark .outputClose, last⟩])).result =
      some (expr, [⟨.mark .outputClose, last⟩])) :
      (listReader (⟨.mark .outputOpen, first⟩ ::
        (tokens ++ [⟨.mark .outputClose, last⟩]))).result =
          some ([.output expr (first.through last)], []) := by
    have chunk := (result_reader_output first _).trans
      (result_outputReader.mpr ⟨expr, last, read, rfl⟩)
    have nothing : (many reader []).result = some ([], []) := result_many_of_none rfl
    exact result_bind_of_some (result_many_of_some chunk (by simp) nothing) _
  constructor
  · intro found
    obtain ⟨several, mid, read, ended⟩ := result_bind_eq_some.mp found
    cases output : (outputReader (⟨.mark .outputOpen, first⟩ ::
        (tokens ++ [⟨.mark .outputClose, last⟩]))).result with
    | none =>
        rw [result_many_of_none ((result_reader_output ..).trans output)] at read
        cases read
        cases ended
    | some chunk =>
        obtain ⟨expr, span, inner, -⟩ := result_outputReader.mp output
        obtain ⟨used, split, -⟩ := Expr.accepts_reader _ expr _ (fun _ _ => trivial) inner
        obtain ⟨-, rfl, nothing⟩ := closer_last closed split
        rw [nothing] at inner
        rw [alone inner] at found
        cases found
        exact ⟨expr, inner, rfl, rfl⟩
  · rintro ⟨expr, read, rfl, rfl⟩
    exact alone read

theorem derives_of_reader (closed : ∀ token ∈ tokens, token.value ≠ .mark .outputClose)
    (read : (Expr.reader (tokens ++ [⟨.mark .outputClose, last⟩])).result =
      some (expr, [⟨.mark .outputClose, last⟩])) :
    Derives .disjunction (values tokens) expr.bare := by
  obtain ⟨used, split, derived⟩ := Expr.accepts_reader _ expr _ (fun _ _ => trivial) read
  obtain ⟨rfl, -, -⟩ := closer_last closed split
  exact derived.bare

theorem reader_of_derives {tree : Expr} (derived : Derives .disjunction (values tokens) tree)
    (last : Span) :
    ∃ expr : Expr, expr.bare = tree ∧
      (Expr.reader (tokens ++ [⟨.mark .outputClose, last⟩])).result =
        some (expr, [⟨.mark .outputClose, last⟩]) := by
  refine Expr.reader_of_derives derived fun token found => ?_
  cases found
  rfl

/-- The tokens of an output region are read just when the grammar derives them, and then the region
is one output whose tree is the one derived, which is the only one. So any tree without awaited
filters is read back from what is written of it. An opener and a closer do not change whether the
tokens are within the limits of nesting. -/
theorem output_iff_derives (size : Nat) (tokens : List (Located Token)) (first last : Span)
    (closed : ∀ token ∈ tokens, token.value ≠ .mark .outputClose) :
    let region := ⟨.mark .outputOpen, first⟩ :: (tokens ++ [⟨.mark .outputClose, last⟩])
    ((∃ chunks, ofTokens size region = .ok chunks) ↔
      ∃ tree, Derives .disjunction (values tokens) tree) ∧
    (∀ tree, Derives .disjunction (values tokens) tree →
      ∃ expr : Expr, ofTokens size region = .ok [.output expr (first.through last)] ∧
        expr.bare = tree) ∧
    (∀ tree other, Derives .disjunction (values tokens) tree →
      Derives .disjunction (values tokens) other → tree = other) ∧
    (∀ expr : Expr, expr.Unawaited → values tokens = expr.written .disjunction →
      ∃ read : Expr, ofTokens size region = .ok [.output read (first.through last)] ∧
        read.bare = expr.bare) ∧
    Nesting.start.check region = Nesting.start.check tokens := by
  intro region
  have parses (tree : Expr) (derived : Derives .disjunction (values tokens) tree) :
      ∃ expr : Expr, ofTokens size region = .ok [.output expr (first.through last)] ∧
        expr.bare = tree := by
    obtain ⟨expr, same, read⟩ := reader_of_derives derived last
    have listed : (listReader region).result = some ([.output expr (first.through last)], []) :=
      (result_listReader_output closed).mpr ⟨expr, read, rfl, rfl⟩
    exact ⟨expr, ofTokens_eq_ok.mpr ⟨[], listed⟩, same⟩
  refine ⟨⟨?_, ?_⟩, parses, ?_, ?_, Nesting.check_region tokens first last⟩
  · rintro ⟨chunks, parsed⟩
    obtain ⟨rest, listed⟩ := ofTokens_eq_ok.mp parsed
    obtain ⟨expr, read, -, -⟩ := (result_listReader_output closed).mp listed
    exact ⟨expr.bare, derives_of_reader closed read⟩
  · rintro ⟨tree, derived⟩
    obtain ⟨expr, parsed, -⟩ := parses tree derived
    exact ⟨_, parsed⟩
  · intro tree other derived derived'
    obtain ⟨expr, parsed, rfl⟩ := parses tree derived
    obtain ⟨expr', parsed', rfl⟩ := parses other derived'
    rw [parsed] at parsed'
    cases parsed'
    rfl
  · intro expr unawaited spelled
    exact parses _ (spelled ▸ expr.derives_written unawaited .disjunction)

/-- `not a.b | f(1, x or y) == (c and d)` -/
theorem output_iff_derives_precedence :
    let name (text : String) : Expr := .var text default
    let target : Expr := .attr (name "a") "b" default
    let args : List Expr :=
      [.literal (.int 1) default, .binary .or (name "x") (name "y") default]
    let tree : Expr :=
      .binary .eq (.negate (.filter false target "f" default args default) default)
        (.binary .and (name "c") (name "d") default) default
    let tokens : List (Located Token) := List.map (⟨·, default⟩)
      [.mark .notWord, .ident "a", .mark .dot, .ident "b", .mark .pipe, .ident "f",
        .mark .parenOpen, .int 1, .mark .comma, .ident "x", .mark .orWord, .ident "y",
        .mark .parenClose, .mark .eq, .mark .parenOpen, .ident "c", .mark .andWord, .ident "d",
        .mark .parenClose]
    (∀ token ∈ tokens, token.value ≠ .mark .outputClose) ∧ tree.Unawaited ∧
      values tokens = tree.written .disjunction ∧
      ∃ read : Expr,
        ofTokens 0 (⟨.mark .outputOpen, default⟩ ::
          (tokens ++ [⟨.mark .outputClose, default⟩])) =
            .ok [.output read (default : Span)] ∧
        read.bare = tree := by
  intro name target args tree tokens
  have closed : ∀ token ∈ tokens, token.value ≠ .mark .outputClose := by decide
  have unawaited : tree.Unawaited := by
    unfold Expr.Unawaited
    decide
  have spelled : values tokens = tree.written .disjunction := rfl
  obtain ⟨-, -, -, rereads, -⟩ := output_iff_derives 0 tokens default default closed
  exact ⟨closed, unawaited, spelled, rereads tree unawaited spelled⟩

end Chunk

end QueryTemplate
