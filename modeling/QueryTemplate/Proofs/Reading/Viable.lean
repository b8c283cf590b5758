import QueryTemplate.Chunk.Reader
import QueryTemplate.Proofs.Reading.Complete
import QueryTemplate.Proofs.Reading.Predictive
import QueryTemplate.Proofs.Reading.Unbounded

set_option autoImplicit false

/- What every reader of the grammar promises with its misses: the tokens up to them can be read on
to an end. There is one lemma for each reader; it names what may follow the end, and gives the
shortest tokens with which the rest of the reader is satisfied. -/

namespace QueryTemplate

open Reader Grammar

/-- Some name, wherever it stands. -/
def someName : Located Token := ⟨.ident "x", default⟩

/-- A mark, wherever it stands. -/
def Mark.anywhere (wanted : Mark) : Located Token := ⟨.mark wanted, default⟩

/-- This mark comes next. -/
def Comes (wanted : Mark) (rest : List (Located Token)) : Prop :=
  (values rest).head? = some (.mark wanted)

theorem Comes.eq_cons {wanted : Mark} {rest : List (Located Token)} (comes : Comes wanted rest) :
    ∃ span later, rest = ⟨.mark wanted, span⟩ :: later := by
  cases rest with
  | nil => cases comes
  | cons token later =>
      obtain ⟨value, span⟩ := token
      obtain rfl : value = .mark wanted := Option.some.inj comes
      exact ⟨span, later, rfl⟩

theorem Comes.ends {wanted : Mark} {rest : List (Located Token)} (comes : Comes wanted rest)
    (continues : (Token.mark wanted).continues? = none) : Expr.Ends rest := by
  intro token found
  cases comes.symm.trans found
  exact continues

theorem Comes.result_mark {wanted other : Mark} {rest : List (Located Token)}
    (comes : Comes wanted rest) (different : wanted ≠ other) : (mark other rest).result = none := by
  refine result_mark_of_ne fun first => different ?_
  exact Token.mark.inj (Option.some.inj (comes.symm.trans first))

theorem predictive_ident {size : Nat} {follow : List (Located Token) → Prop} :
    Predictive size follow ident :=
  .accept ⟨.ident "x", "x", rfl⟩ fun _ _ => rfl

theorem leaves_ident (rest : List (Located Token)) : Leaves ident (someName :: rest) rest :=
  ⟨_, rfl⟩

namespace Expr

variable {size : Nat} {rest : List (Located Token)} {follow : List (Located Token) → Prop}

theorem result_resume_of_ends (inner : Reader Expr) (level : Precedence) (expr : Expr)
    (ends : Ends rest) : (resume inner level expr rest).result = some (expr, rest) := by
  cases level with
  | disjunction =>
      refine result_follow_of_none (result_bind_of_none (result_mark_of_ne fun first => ?_) _)
      cases ends _ first
  | conjunction =>
      have next : Precedence.disjunction.tighter? = some .conjunction := rfl
      exact result_resume next (ends.stops _) expr
  | comparison => rfl
  | negation => rfl
  | filtered =>
      have next : Precedence.negation.tighter? = some .filtered := rfl
      exact result_resume next (ends.stops _) expr
  | accessed =>
      have next : Precedence.filtered.tighter? = some .accessed := rfl
      exact result_resume next (ends.stops _) expr
  | atom => rfl

/-- A name is an expression of every level. -/
theorem leaves_name (inner : Reader Expr) (level : Precedence) (ends : Ends rest) :
    Leaves (levelReader inner level) (someName :: rest) rest := by
  have step (loose tight : Precedence) (next : loose.tighter? = some tight)
      (read : (levelReader inner tight (someName :: rest)).result =
        some (.var "x" default, rest)) :
      (levelReader inner loose (someName :: rest)).result = some (.var "x" default, rest) :=
    (result_levelReader next read (ends.stops _)).trans (result_resume_of_ends inner loose _ ends)
  refine ⟨.var "x" default, ?_⟩
  have atom : (levelReader inner .atom (someName :: rest)).result =
      some (.var "x" default, rest) := rfl
  have accessed := step .accessed .atom rfl atom
  have filtered := step .filtered .accessed rfl accessed
  have negated := step .negation .filtered rfl filtered
  have compared := step .comparison .negation rfl negated
  have joined := step .conjunction .comparison rfl compared
  cases level with
  | disjunction => exact step .disjunction .conjunction rfl joined
  | conjunction => exact joined
  | comparison => exact compared
  | negation => exact negated
  | filtered => exact filtered
  | accessed => exact accessed
  | atom => exact atom

theorem leaves_reader_name (ends : Ends rest) : Leaves reader (someName :: rest) rest := by
  rw [reader_eq_disjunction]
  exact leaves_name reader .disjunction ends

/-- Nothing is read on where a mark would continue an expression. -/
theorem Ends.result_mark {wanted : Mark} (ends : Ends rest)
    (continues : (Token.mark wanted).continues? ≠ none) : (mark wanted rest).result = none :=
  result_mark_of_ne fun first => continues (ends _ first)

theorem Ends.idle_bind {α : Type} {next : Span → Reader α} {wanted : Mark} (ends : Ends rest)
    (continues : (Token.mark wanted).continues? ≠ none) : Idle (mark wanted >>= next) rest :=
  idle_of_none (result_bind_of_none (ends.result_mark continues) _)

theorem predictive_literalReader : Predictive size follow literalReader :=
  (Predictive.accept ⟨.int 0, .int 0, rfl⟩ fun _ plain => plain).map _

theorem predictive_varReader : Predictive size follow varReader := predictive_ident.map _

theorem predictive_parens (each : Predictive size Ends reader) :
    Predictive (size + 1) follow (parens reader) := by
  have closes (expr : Expr) (rest : List (Located Token)) :
      Leaves (do let _ ← mark .parenClose; return expr) (Mark.parenClose.anywhere :: rest) rest :=
    (leaves_mark ..).map _
  refine .after_mark (by decide) ⟨[someName, Mark.parenClose.anywhere], fun rest _ => ?_⟩ ?_
  · exact (leaves_reader_name (.close _ rest)).bind fun expr => closes expr rest
  · exact each.bind (fun _ _ => .bind fun _ => .pure _ _)
      ⟨[Mark.parenClose.anywhere], fun rest _ => ⟨.close _ rest, fun expr => closes expr rest⟩⟩
      fun expr => (Predictive.mark (by decide)).map _

theorem predictive_atom (each : Predictive size Ends reader) :
    Predictive (size + 1) follow (atom reader) := by
  refine .choice (List.cons_ne_nil _ _) fun reader within => ?_
  simp only [List.mem_cons, List.not_mem_nil, or_false] at within
  rcases within with rfl | rfl | rfl
  · exact predictive_literalReader
  · exact predictive_varReader
  · exact predictive_parens each

theorem predictive_access : Predictive size follow access :=
  .mark_then (by decide) ⟨[someName], fun rest _ => leaves_ident rest⟩ predictive_ident

theorem predictive_accessed (each : Predictive size Ends reader) :
    Predictive (size + 1) Ends (accessed reader) := by
  have idle (rest : List (Located Token)) (ends : Ends rest) : Idle access rest :=
    ends.idle_bind (by decide)
  refine (predictive_atom each).bind_anything (fun _ _ => .bind fun _ => .pure _ _)
    ⟨[], fun rest ends _ => ?_⟩ fun head => ?_
  · exact (leaves_many_of_idle (idle rest ends)).map _
  · exact (predictive_access.many_anything idle).map _

/-- The first expression decides whether there are any. -/
theorem commaList_eq_or (inner : Reader Expr) :
    commaList inner = (do
      let first ← inner
      let rest ← many do
        let _ ← mark .comma
        inner
      let _ ← optional (mark .comma)
      return first :: rest : Reader (List Expr)).or (pure []) := by
  funext tokens
  rcases result_eq_none_or inner tokens with fails | ⟨first, rest, read⟩
  · refine Outcome.eq_of_parts ?_ ?_
    · rw [commaList, result_bind_of_some (result_optional_of_none fails), result_or,
        result_bind_of_none fails, Option.none_or]
    · rw [commaList, miss_bind_of_some (result_optional_of_none fails), miss_optional,
        miss_or_of_none (result_bind_of_none fails _), miss_bind_of_none fails]
  · obtain ⟨others, mid, several⟩ := result_many_isSome (do let _ ← mark .comma; inner) rest
    obtain ⟨comma, last, ended⟩ := result_optional_isSome (mark .comma) mid
    have whole : ((do
        let first ← inner
        let rest ← many do
          let _ ← mark .comma
          inner
        let _ ← optional (mark .comma)
        return first :: rest : Reader (List Expr)) tokens).result = some (first :: others, last) :=
      (result_bind_of_some read _).trans
        ((result_bind_of_some several _).trans (result_bind_of_some ended _))
    refine Outcome.eq_of_parts ?_ ?_
    · rw [commaList, result_bind_of_some (result_optional_of_some read), result_or, whole]
      exact (result_bind_of_some several _).trans (result_bind_of_some ended _)
    · rw [commaList, miss_bind_of_some (result_optional_of_some read), miss_optional,
        miss_or_of_some whole, miss_bind_of_some read]

/-- No argument begins with the parenthesis that closes the arguments. -/
theorem result_reader_of_close (comes : Comes .parenClose rest) : (reader rest).result = none := by
  obtain ⟨span, later, rfl⟩ := comes.eq_cons
  exact result_readerWithin_of_close _ span

theorem predictive_commaList (each : Predictive size Ends reader) :
    Predictive size (Comes .parenClose) (commaList reader) := by
  have noComma (rest : List (Located Token)) (comes : Comes .parenClose rest) :
      (mark .comma rest).result = none := comes.result_mark (by decide)
  have idle (rest : List (Located Token)) (comes : Comes .parenClose rest) :
      Idle (do let _ ← mark .comma; reader) rest :=
    idle_of_none (result_bind_of_none (noComma rest comes) _)
  have comma : Predictive size Ends (do let _ ← mark .comma; reader) :=
    .mark_then (by decide) ⟨[someName], fun _ ends => leaves_reader_name ends⟩ each
  have others : Predictive size (Comes .parenClose) (many do let _ ← mark .comma; reader) :=
    comma.many fun rest comes => ⟨comes.ends rfl, idle rest comes⟩
  have trailing : Predictive size (Comes .parenClose) (optional (mark .comma)) :=
    (Predictive.mark (by decide)).optional
  have ends (make : Option Span → List Expr) (rest : List (Located Token))
      (comes : Comes .parenClose rest) :
      Leaves (do let comma ← optional (mark .comma); return make comma) rest rest :=
    (leaves_optional_of_none (noComma rest comes)).map _
  rw [commaList_eq_or]
  refine .or ?_ (.pure _ _ _)
  refine each.bind (fun _ _ => .bind fun _ => .bind fun _ => .pure _ _)
    ⟨[], fun rest comes => ⟨comes.ends rfl, fun first => ?_⟩⟩ fun first => ?_
  · exact (leaves_many_of_idle (idle rest comes)).bind fun _ => ends _ rest comes
  · exact others.bind (fun _ _ => .bind fun _ => .pure _ _)
      ⟨[], fun rest comes => ⟨comes, fun _ => ends _ rest comes⟩⟩ fun _ => trailing.map _

theorem leaves_commaList (comes : Comes .parenClose rest) :
    Leaves (commaList reader) rest rest := by
  rw [commaList_eq_or]
  exact leaves_or_of_none (result_bind_of_none (result_reader_of_close comes) _) (leaves_pure ..)

theorem predictive_filterArgs (each : Predictive size Ends reader) :
    Predictive (size + 1) follow (filterArgs reader) := by
  have closes (args : List Expr) (rest : List (Located Token)) :
      Leaves (do let close ← mark .parenClose; return (args, close))
        (Mark.parenClose.anywhere :: rest) rest :=
    (leaves_mark ..).map _
  refine .after_mark (by decide) ⟨[Mark.parenClose.anywhere], fun rest _ => ?_⟩ ?_
  · have comes : Comes .parenClose (Mark.parenClose.anywhere :: rest) := rfl
    exact (leaves_commaList comes).bind fun args => closes args rest
  · exact (predictive_commaList each).bind (fun _ _ => .bind fun _ => .pure _ _)
      ⟨[Mark.parenClose.anywhere], fun rest _ => ⟨rfl, fun args => closes args rest⟩⟩
      fun args => (Predictive.mark (by decide)).map _

/-- A filter without parentheses has no arguments, and ends with its name. -/
theorem filterSuffix_eq_map (inner : Reader Expr) :
    filterSuffix inner = (do
      let _ ← mark .pipe
      let name ← ident
      let args ← optional (filterArgs inner)
      return ⟨name, args.elim [] Prod.fst, args.elim name.span Prod.snd⟩) := by
  refine congrArg (mark .pipe >>= ·) (funext fun _ => ?_)
  refine congrArg (ident >>= ·) (funext fun name => ?_)
  refine congrArg (optional (filterArgs inner) >>= ·) (funext fun args => ?_)
  rcases args with _ | ⟨args, close⟩ <;> rfl

theorem predictive_filterSuffix (each : Predictive size Ends reader) :
    Predictive (size + 1) Ends (filterSuffix reader) := by
  have alone (make : Option (List Expr × Span) → FilterSuffix) (rest : List (Located Token))
      (ends : Ends rest) :
      Leaves (do let args ← optional (filterArgs reader); return make args) rest rest :=
    (leaves_optional_of_none
      (result_bind_of_none (ends.result_mark (by decide)) _)).map _
  rw [filterSuffix_eq_map]
  refine .mark_then (by decide) ⟨[someName], fun rest ends => ?_⟩ ?_
  · exact (leaves_ident rest).bind fun _ => alone _ rest ends
  · exact predictive_ident.bind_anything (fun _ _ => .bind fun _ => .pure _ _)
      ⟨[], fun rest ends _ => alone _ rest ends⟩
      fun _ => (predictive_filterArgs each).optional.map _

theorem predictive_filtered (each : Predictive size Ends reader) :
    Predictive (size + 1) Ends (filtered reader) := by
  have idle (rest : List (Located Token)) (ends : Ends rest) : Idle (filterSuffix reader) rest :=
    ends.idle_bind (by decide)
  refine (predictive_accessed each).bind (fun _ _ => .bind fun _ => .pure _ _)
    ⟨[], fun rest ends => ⟨ends, fun _ => ?_⟩⟩ fun head => ?_
  · exact (leaves_many_of_idle (idle rest ends)).map _
  · exact ((predictive_filterSuffix each).many fun rest ends => ⟨ends, idle rest ends⟩).map _

theorem predictive_negated (each : Predictive size Ends reader) :
    Predictive (size + 1) Ends (negated reader) := by
  have nots : Predictive (size + 1) (fun rest => ¬Comes .notWord rest) (many (mark .notWord)) :=
    (Predictive.mark (by decide)).many_anything fun rest other =>
      idle_of_none (result_mark_of_ne other)
  refine nots.bind (fun _ _ => .bind fun _ => .pure _ _)
    ⟨[someName], fun rest ends => ⟨by simp [Comes, someName], fun _ => ?_⟩⟩
    fun spans => (predictive_filtered each).map _
  exact (leaves_name reader .filtered ends).map _

theorem predictive_comparisonOp : Predictive size follow comparisonOp := by
  have marks (wanted : Mark) (op : BinaryOp) (plain : wanted.IsPlain) :
      Predictive size follow (marked wanted op) :=
    (Predictive.mark plain).map fun _ => op
  refine .choice (List.cons_ne_nil _ _) fun reader within => ?_
  simp only [List.mem_cons, List.not_mem_nil, or_false] at within
  rcases within with rfl | rfl | rfl | rfl | rfl | rfl
  all_goals exact marks _ _ (by decide)

/-- Without an operator the left operand is the whole expression. -/
theorem comparison_eq_map (inner : Reader Expr) :
    comparison inner = (do
      let left ← negated inner
      let right ← optional do
        let op ← comparisonOp
        let right ← negated inner
        return (op, right)
      return right.elim left fun right => join right.1 left right.2) := by
  refine congrArg (negated inner >>= ·) (funext fun left => ?_)
  refine congrArg (optional _ >>= ·) (funext fun right => ?_)
  rcases right with _ | ⟨op, right⟩ <;> rfl

theorem predictive_comparison (each : Predictive size Ends reader) :
    Predictive (size + 1) Ends (comparison reader) := by
  let operand : Reader (BinaryOp × Expr) := do
    let op ← comparisonOp
    let right ← negated reader
    return (op, right)
  have second : Predictive (size + 1) Ends operand := by
    refine predictive_comparisonOp.bind_anything (fun _ _ => .bind fun _ => .pure _ _)
      ⟨[someName], fun rest ends op => ?_⟩ fun op => (predictive_negated each).map _
    exact (leaves_name reader .negation ends).map _
  rw [comparison_eq_map]
  refine (predictive_negated each).bind (fun _ _ => .bind fun _ => .pure _ _)
    ⟨[], fun rest ends => ⟨ends, fun left => ?_⟩⟩ fun left => second.optional.map _
  have fails : (operand rest).result = none :=
    result_bind_of_none (result_comparisonOp_of_stops (ends.stops _)) _
  exact (leaves_optional_of_none fails).map _

theorem predictive_chain {operand : Reader Expr} (word : Mark) (op : BinaryOp)
    (plain : word.IsPlain) (continues : (Token.mark word).continues? ≠ none)
    (each : Predictive size Ends operand)
    (names : ∀ rest, Ends rest → Leaves operand (someName :: rest) rest) :
    Predictive size Ends (chain word op operand) := by
  have next : Predictive size Ends (do let _ ← mark word; operand) :=
    .mark_then plain ⟨[someName], names⟩ each
  refine each.bind (fun _ _ => .bind fun _ => .pure _ _)
    ⟨[], fun rest ends => ⟨ends, fun _ => ?_⟩⟩ fun first => ?_
  · exact (leaves_many_of_idle (ends.idle_bind continues)).map _
  · exact (next.many fun rest ends => ⟨ends, ends.idle_bind continues⟩).map _

theorem predictive_disjunction (each : Predictive size Ends reader) :
    Predictive (size + 1) Ends (disjunction reader) := by
  have conjunction := predictive_chain .andWord .and (by decide) (by decide)
    (predictive_comparison each) fun rest ends => leaves_name reader .comparison ends
  exact predictive_chain .orWord .or (by decide) (by decide) conjunction
    fun rest ends => leaves_name reader .conjunction ends

theorem predictive_reader (size : Nat) : Predictive size Ends reader := by
  induction size with
  | zero => exact .zero Ends reader
  | succ size ih =>
      rw [reader_eq_disjunction]
      exact predictive_disjunction ih

end Expr

namespace Header

variable {size : Nat} {rest : List (Located Token)}

/-- A name, a sign and an expression. -/
theorem predictive_named {α : Type} {sign : Mark} (plain : sign.IsPlain)
    (make : Located String → Expr → α) :
    Predictive size Expr.Ends (do
      let name ← ident
      let _ ← mark sign
      let value ← Expr.reader
      return make name value) := by
  have value (name : Located String) :
      Predictive size Expr.Ends (do let value ← Expr.reader; return make name value) :=
    (Expr.predictive_reader size).map _
  have leaves (name : Located String) (rest : List (Located Token)) (ends : Expr.Ends rest) :
      Leaves (do let value ← Expr.reader; return make name value) (someName :: rest) rest :=
    (Expr.leaves_reader_name ends).map _
  refine predictive_ident.bind_anything
    (fun _ _ => .bind fun _ => .bind fun _ => .pure _ _)
    ⟨[sign.anywhere, someName], fun rest ends name => ?_⟩ fun name => ?_
  · exact (leaves_mark ..).bind fun _ => leaves name rest ends
  · exact .mark_then plain ⟨[someName], leaves name⟩ (value name)

theorem leaves_named {α : Type} (sign : Mark) (make : Located String → Expr → α)
    (ends : Expr.Ends rest) :
    Leaves (do
      let name ← ident
      let _ ← mark sign
      let value ← Expr.reader
      return make name value) (someName :: sign.anywhere :: someName :: rest) rest :=
  (leaves_ident _).bind fun _ => (leaves_mark ..).bind fun _ =>
    (Expr.leaves_reader_name ends).map _

/-- A word and an expression. -/
theorem predictive_condition {word : Mark} (plain : word.IsPlain) (make : Expr → Header) :
    Predictive size Expr.Ends (do
      let _ ← mark word
      let condition ← Expr.reader
      return make condition) :=
  .mark_then plain ⟨[someName], fun _ ends => (Expr.leaves_reader_name ends).map _⟩
    ((Expr.predictive_reader size).map _)

/-- A word, a name, a sign and an expression. -/
theorem predictive_binding {word sign : Mark} (plain : word.IsPlain) (plain' : sign.IsPlain)
    (make : Located String → Expr → Header) :
    Predictive size Expr.Ends (do
      let _ ← mark word
      let name ← ident
      let _ ← mark sign
      let value ← Expr.reader
      return make name value) :=
  .mark_then plain
    ⟨[someName, sign.anywhere, someName], fun _ ends => leaves_named sign make ends⟩
    (predictive_named plain' make)

theorem predictive_arg : Predictive size Anything arg := by
  have either : Predictive size Expr.Ends (keywordArg.or positionalArg) :=
    (predictive_named (by decide) _).or ((Expr.predictive_reader size).map _)
  refine either.bind (fun _ _ => .bind fun _ => .pure _ _)
    ⟨[Mark.comma.anywhere], fun rest _ => ⟨.comma _ rest, fun value => ?_⟩⟩
    fun value => (Predictive.mark (by decide)).optional.map _
  obtain ⟨span, read⟩ := leaves_mark .comma default rest
  have comma : Leaves (optional (mark .comma)) (Mark.comma.anywhere :: rest) rest :=
    ⟨_, result_optional_of_some read⟩
  exact comma.map _

/-- No argument begins with the closer of the tag. -/
theorem result_arg_of_close (comes : Comes .tagClose rest) : (arg rest).result = none := by
  obtain ⟨span, later, rfl⟩ := comes.eq_cons
  have absent : (Expr.reader (⟨.mark .tagClose, span⟩ :: later)).result = none :=
    Expr.result_readerWithin_of_mark rfl (by decide) (by decide) _ span
  have keyword : (keywordArg (⟨.mark .tagClose, span⟩ :: later)).result = none :=
    result_bind_of_none rfl _
  have positional : (positionalArg (⟨.mark .tagClose, span⟩ :: later)).result = none :=
    result_bind_of_none absent _
  refine result_bind_of_none ?_ _
  rw [result_or, keyword, positional, Option.none_or]

theorem predictive_tagHeader : Predictive size (Comes .tagClose) tagHeader := by
  have idle (rest : List (Located Token)) (comes : Comes .tagClose rest) : Idle arg rest :=
    idle_of_none (result_arg_of_close comes)
  refine predictive_ident.bind_anything (fun _ _ => .bind fun _ => .pure _ _)
    ⟨[], fun rest comes name => ?_⟩ fun name => ?_
  · exact (leaves_many_of_idle (idle rest comes)).map _
  · exact (predictive_arg.many_anything idle).map _

theorem predictive_reader : Predictive size (Comes .tagClose) reader := by
  have ends (rest : List (Located Token)) (comes : Comes .tagClose rest) : Expr.Ends rest :=
    comes.ends rfl
  refine .choice (List.cons_ne_nil _ _) fun reader within => ?_
  simp only [List.mem_cons, List.not_mem_nil, or_false] at within
  rcases within with rfl | rfl | rfl | rfl | rfl | rfl | rfl | rfl
  · exact (predictive_condition (by decide) _).mono ends
  · exact (predictive_condition (by decide) _).mono ends
  · exact (Predictive.mark (by decide)).map _
  · exact (Predictive.mark (by decide)).map _
  · exact (predictive_binding (by decide) (by decide) _).mono ends
  · exact (Predictive.mark (by decide)).map _
  · exact (predictive_binding (by decide) (by decide) _).mono ends
  · exact predictive_tagHeader

/-- The shortest header is a word. -/
theorem leaves_otherwise (rest : List (Located Token)) :
    Leaves reader (Mark.elseWord.anywhere :: rest) rest := ⟨.otherwise, rfl⟩

end Header

namespace Chunk

variable {size : Nat} {follow : List (Located Token) → Prop}

theorem predictive_region {α : Type} {inside : Reader α} {opener closer : Mark}
    (opens : opener.IsPlain) (closes : closer.IsPlain) (make : Span → α → Span → Chunk)
    (each : Predictive size (Comes closer) inside) {token : Located Token}
    (some : ∀ rest, Comes closer rest → Leaves inside (token :: rest) rest) :
    Predictive size follow (do
      let first ← mark opener
      let content ← inside
      let last ← mark closer
      return make first content last) := by
  have leaves (first : Span) (content : α) (rest : List (Located Token)) :
      Leaves (do let last ← mark closer; return make first content last)
        (closer.anywhere :: rest) rest :=
    (leaves_mark ..).map _
  have comes (rest : List (Located Token)) : Comes closer (closer.anywhere :: rest) := rfl
  refine (Predictive.mark opens).bind_anything
    (fun _ _ => .bind fun _ => .bind fun _ => .pure _ _)
    ⟨[token, closer.anywhere], fun rest _ first => ?_⟩ fun first => ?_
  · exact (some _ (comes rest)).bind fun content => leaves first content rest
  · exact each.bind (fun _ _ => .bind fun _ => .pure _ _)
      ⟨[closer.anywhere], fun rest _ => ⟨comes rest, fun content => leaves first content rest⟩⟩
      fun content => (Predictive.mark closes).map _

theorem predictive_reader : Predictive size follow reader := by
  refine .choice (List.cons_ne_nil _ _) fun reader within => ?_
  simp only [List.mem_cons, List.not_mem_nil, or_false] at within
  rcases within with rfl | rfl | rfl
  · exact (Predictive.accept ⟨.text "", "", rfl⟩ fun _ _ => rfl).map _
  · exact predictive_region (by decide) (by decide) _
      ((Expr.predictive_reader size).mono fun _ comes => comes.ends rfl)
      fun _ comes => Expr.leaves_reader_name (comes.ends rfl)
  · exact predictive_region (by decide) (by decide) _ Header.predictive_reader
      fun rest _ => Header.leaves_otherwise rest

theorem predictive_many (size : Nat) : Predictive size (· = []) (many reader) :=
  predictive_reader.many_anything fun _ nothing => idle_of_none (by rw [nothing]; rfl)

end Chunk

end QueryTemplate
