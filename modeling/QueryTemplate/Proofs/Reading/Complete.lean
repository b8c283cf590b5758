import QueryTemplate.Proofs.Reading.Accepted
import QueryTemplate.Proofs.Reading.Results

set_option autoImplicit false

/- What the grammar derives is read, with its tree. A reader takes as much as it can, so the tokens
of an expression are read as that expression only where what comes after them does not continue a
tighter part of it; the tokens that do so are told by the level of what they continue. -/

namespace QueryTemplate

open Reader Grammar

/-- The level of the expressions that a token continues. A parenthesis continues a filter that has
no arguments yet. -/
def Token.continues? : Token → Option Precedence
  | .mark .dot => some .accessed
  | .mark .parenOpen => some .accessed
  | .mark .pipe => some .filtered
  | .mark .eq => some .negation
  | .mark .notEq => some .negation
  | .mark .less => some .negation
  | .mark .lessEq => some .negation
  | .mark .greater => some .negation
  | .mark .greaterEq => some .negation
  | .mark .andWord => some .conjunction
  | .mark .orWord => some .disjunction
  | _ => none

theorem BinaryOp.continues?_mark (op : BinaryOp) :
    (Token.mark op.mark).continues? = some op.leftLevel := by
  cases op <;> rfl

namespace Expr

/-- What comes continues no expression that is tighter than the level. -/
def Stops (level : Precedence) (rest : List (Located Token)) : Prop :=
  ∀ token left, (values rest).head? = some token → token.continues? = some left →
    left.rank ≤ level.rank

/-- What comes continues no expression. -/
def Ends (rest : List (Located Token)) : Prop :=
  ∀ token, (values rest).head? = some token → token.continues? = none

variable {level tight : Precedence} {rest tokens used : List (Located Token)}

theorem Ends.close (span : Span) (rest : List (Located Token)) :
    Ends (⟨.mark .parenClose, span⟩ :: rest) := by
  intro token found
  cases found
  rfl

theorem Ends.comma (span : Span) (rest : List (Located Token)) :
    Ends (⟨.mark .comma, span⟩ :: rest) := by
  intro token found
  cases found
  rfl

/-- A comma comes after an argument, or what comes after all of them. -/
theorem Ends.after_args (ends : Ends rest) {items : List (List Token)}
    {later : List (Located Token)}
    (spelled : values later = items.flatMap fun item => .mark .comma :: item) :
    Ends (later ++ rest) := by
  intro token found
  rw [values_append, spelled] at found
  cases items with
  | nil => exact ends token found
  | cons item items =>
      cases found
      rfl

theorem Ends.stops (ends : Ends rest) (level : Precedence) : Stops level rest := by
  intro token left first continues
  rw [ends token first] at continues
  cases continues

theorem Stops.tighten (stops : Stops level rest) (next : level.tighter? = some tight) :
    Stops tight rest := by
  intro token left first continues
  have rank := Precedence.rank_tighter next
  have looser := stops token left first continues
  omega

theorem Stops.head_ne (stops : Stops level rest) (token : Token) {left : Precedence}
    (continues : token.continues? = some left) (tighter : level.rank < left.rank) :
    (values rest).head? ≠ some token := by
  intro first
  have looser := stops token left first continues
  omega

theorem stops_cons {token : Located Token} {left : Precedence}
    (continues : token.value.continues? = some left) (looser : left.rank ≤ level.rank) :
    Stops level (token :: rest) := by
  intro other found first continues'
  cases first
  rw [continues] at continues'
  cases continues'
  exact looser

/-- Reads an expression of a level. -/
def levelReader (inner : Reader Expr) : Precedence → Reader Expr
  | .disjunction => disjunction inner
  | .conjunction => chain .andWord .and (comparison inner)
  | .comparison => comparison inner
  | .negation => negated inner
  | .filtered => filtered inner
  | .accessed => accessed inner
  | .atom => atom inner

/-- Reads on after an expression of a level, where it is the left part of a longer one. -/
def resume (inner : Reader Expr) : Precedence → Expr → Reader Expr
  | .disjunction => follow (do let _ ← mark .orWord; levelReader inner .conjunction) (join .or)
  | .conjunction => follow (do let _ ← mark .andWord; levelReader inner .comparison) (join .and)
  | .filtered => follow (filterSuffix inner) applyFilter
  | .accessed =>
    follow access fun target name => .attr target name.value (target.span.through name.span)
  | _ => fun expr => pure expr

variable {inner : Reader Expr} {expr : Expr}

/-- Reading on after a tighter expression takes nothing where nothing continues it. -/
theorem result_resume (next : level.tighter? = some tight) (stops : Stops level rest)
    (expr : Expr) : (resume inner tight expr rest).result = some (expr, rest) := by
  cases level with
  | disjunction =>
      cases next
      have other := stops.head_ne (.mark .andWord) rfl (by decide)
      exact result_follow_of_none (result_bind_of_none (result_mark_of_ne other) _)
  | conjunction =>
      cases next
      rfl
  | comparison =>
      cases next
      rfl
  | negation =>
      cases next
      have other := stops.head_ne (.mark .pipe) rfl (by decide)
      exact result_follow_of_none (result_bind_of_none (result_mark_of_ne other) _)
  | filtered =>
      cases next
      have other := stops.head_ne (.mark .dot) rfl (by decide)
      exact result_follow_of_none (result_bind_of_none (result_mark_of_ne other) _)
  | accessed =>
      cases next
      rfl
  | atom => cases next

theorem result_atom_of_mark {wanted : Mark} (value : literalOf? (.mark wanted) = none)
    (closed : wanted ≠ .parenOpen) (span : Span) :
    (atom inner (⟨.mark wanted, span⟩ :: rest)).result = none := by
  have literal : (literalReader (⟨.mark wanted, span⟩ :: rest)).result = none := by
    refine result_bind_of_none ?_ _
    simp [accept, value]
  have parens : (parens inner (⟨.mark wanted, span⟩ :: rest)).result = none :=
    result_bind_of_none (result_mark_of_ne (by simpa using closed)) _
  simp only [atom, choice, result_or, literal, parens, Option.none_or, Option.or_none]
  rfl

theorem result_filtered_of_atom (fails : (atom inner tokens).result = none) :
    (filtered inner tokens).result = none :=
  result_bind_of_none (result_bind_of_none fails _) _

theorem head_ne_of_filtered (read : (filtered inner tokens).result = some (expr, rest)) :
    (values tokens).head? ≠ some (.mark .notWord) := by
  intro first
  obtain ⟨token, tokens, rfl⟩ : ∃ token later, tokens = token :: later := by
    cases tokens with
    | nil => cases first
    | cons token later => exact ⟨token, later, rfl⟩
  obtain ⟨value, span⟩ := token
  cases first
  have fails : (atom inner (⟨.mark .notWord, span⟩ :: tokens)).result = none :=
    result_atom_of_mark rfl (by decide) span
  rw [result_filtered_of_atom fails] at read
  cases read

theorem result_comparisonOp_of_stops (stops : Stops .comparison rest) :
    (comparisonOp rest).result = none := by
  have fails (op : BinaryOp) (compares : op.leftLevel = .negation) :
      (marked op.mark op rest).result = none := by
    have other := stops.head_ne _ op.continues?_mark (by rw [compares]; decide)
    exact result_bind_of_none (result_mark_of_ne other) _
  simp only [comparisonOp, choice, result_or, Option.or_eq_none_iff]
  exact ⟨fails .eq rfl, fails .notEq rfl, fails .lessEq rfl, fails .greaterEq rfl,
    fails .less rfl, fails .greater rfl⟩

/-- What is read at a level is read on from at the next looser one. -/
theorem result_levelReader (next : level.tighter? = some tight)
    (read : (levelReader inner tight tokens).result = some (expr, rest))
    (stops : Stops level rest) :
    (levelReader inner level tokens).result = (resume inner level expr rest).result := by
  cases level with
  | comparison =>
      cases next
      have alone := result_bind_of_none (result_comparisonOp_of_stops stops) fun op => do
        let right ← negated inner
        return (op, right)
      exact (result_bind_of_some read _).trans
        (result_bind_of_some (result_optional_of_none alone) _)
  | negation =>
      cases next
      have none := result_many_of_none (result_mark_of_ne (head_ne_of_filtered read))
      exact (result_bind_of_some none _).trans (result_bind_of_some read _)
  | atom => cases next
  | _ =>
      cases next
      exact result_bind_of_some read _

/-- Tokens are read as a tree at a level, whatever comes after them that continues no tighter
expression. -/
def Readable (depth : Nat) (level : Precedence) (used : List (Located Token)) (tree : Expr) :
    Prop :=
  ∃ expr : Expr, expr.bare = tree ∧ ∀ rest, Stops level rest →
    (levelReader (readerWithin depth) level (used ++ rest)).result =
      (resume (readerWithin depth) level expr rest).result

/-- Tokens are read as a tree, whatever comes after them that continues no expression. -/
def Settled (depth : Nat) (used : List (Located Token)) (tree : Expr) : Prop :=
  ∃ expr : Expr, expr.bare = tree ∧ ∀ rest, Ends rest →
    (readerWithin depth (used ++ rest)).result = some (expr, rest)

variable {depth : Nat} {tree : Expr}

theorem Readable.settled (readable : Readable depth .disjunction used tree) :
    Settled (depth + 1) used tree := by
  obtain ⟨expr, same, reads⟩ := readable
  refine ⟨expr, same, fun rest ends => (reads rest (ends.stops _)).trans ?_⟩
  refine result_follow_of_none (result_bind_of_none (result_mark_of_ne fun first => ?_) _)
  cases ends _ first

theorem Readable.of_tighter (next : level.tighter? = some tight)
    (readable : Readable depth tight used tree) : Readable depth level used tree := by
  obtain ⟨expr, same, reads⟩ := readable
  refine ⟨expr, same, fun rest stops => ?_⟩
  have read := (reads rest (stops.tighten next)).trans (result_resume next stops expr)
  exact result_levelReader next read stops

theorem readable_literal (depth : Nat) (value : Literal) (span : Span) :
    Readable depth .atom [⟨value.token, span⟩] (.literal value default) := by
  refine ⟨.literal value span, rfl, fun rest _ => ?_⟩
  have read : (literalReader (⟨value.token, span⟩ :: rest)).result =
      some (.literal value span, rest) := by
    have selected : literalOf? value.token = some value := literalOf?_eq_some.mpr rfl
    simp only [literalReader, result_bind, accept, selected, Option.bind_some]
    rfl
  simp only [levelReader, atom, choice, result_or, List.singleton_append, read, Option.some_or]
  rfl

theorem readable_var (depth : Nat) (name : String) (span : Span) :
    Readable depth .atom [⟨.ident name, span⟩] (.var name default) :=
  ⟨.var name span, rfl, fun _ _ => rfl⟩

theorem Settled.parens (settled : Settled depth used tree) (first last : Span) :
    Readable depth .atom (⟨.mark .parenOpen, first⟩ :: used ++ [⟨.mark .parenClose, last⟩])
      tree := by
  obtain ⟨expr, same, reads⟩ := settled
  refine ⟨expr, same, fun rest _ => ?_⟩
  have read : (Expr.parens (readerWithin depth) (⟨.mark .parenOpen, first⟩ :: used ++
      ⟨.mark .parenClose, last⟩ :: rest)).result = some (expr, rest) := by
    refine (result_bind_of_some (result_mark ..) _).trans ?_
    refine (result_bind_of_some (reads _ (.close last rest)) _).trans ?_
    exact result_bind_of_some (result_mark ..) _
  rw [List.cons_append, List.cons_append, List.append_assoc]
  exact read

theorem Readable.attr (readable : Readable depth .accessed used tree) (dot place : Span)
    (name : String) :
    Readable depth .accessed (used ++ [⟨.mark .dot, dot⟩, ⟨.ident name, place⟩])
      (.attr tree name default) := by
  obtain ⟨expr, rfl, reads⟩ := readable
  refine ⟨.attr expr name (expr.span.through place), rfl, fun rest stops => ?_⟩
  have read : (access (⟨.mark .dot, dot⟩ :: ⟨.ident name, place⟩ :: rest)).result =
      some (⟨name, place⟩, rest) := result_bind_of_some (result_mark ..) _
  rw [List.append_assoc]
  refine (reads _ (stops_cons rfl (Nat.le_refl _))).trans ?_
  exact result_follow_of_some read (by simp only [List.length_cons]; omega)

theorem Readable.negate (readable : Readable depth .negation used tree) (span : Span) :
    Readable depth .negation (⟨.mark .notWord, span⟩ :: used) (.negate tree default) := by
  obtain ⟨expr, rfl, reads⟩ := readable
  refine ⟨.negate expr (span.through expr.span), rfl, fun rest stops => ?_⟩
  obtain ⟨nots, mid, several⟩ := result_many_isSome (mark .notWord) (used ++ rest)
  have read := (result_bind_of_some several _).symm.trans (reads rest stops)
  obtain ⟨operand, last, filtered, folded⟩ := result_bind_eq_some.mp read
  cases folded
  have more := result_many_of_some (result_mark .notWord span (used ++ rest)) (by simp) several
  exact (result_bind_of_some more _).trans (result_bind_of_some filtered _)

theorem result_comparisonOp (op : BinaryOp) (compares : op.level = .comparison) (span : Span) :
    (comparisonOp (⟨.mark op.mark, span⟩ :: rest)).result = some (op, rest) := by
  cases op <;> first | rfl | cases compares

theorem Readable.compare {op : BinaryOp} {before after : List (Located Token)} {left right : Expr}
    (compares : op.level = .comparison) (first : Readable depth .negation before left)
    (second : Readable depth .negation after right) (span : Span) :
    Readable depth .comparison (before ++ ⟨.mark op.mark, span⟩ :: after)
      (.binary op left right default) := by
  obtain ⟨expr, rfl, readsLeft⟩ := first
  obtain ⟨other, rfl, readsRight⟩ := second
  refine ⟨join op expr other, rfl, fun rest stops => ?_⟩
  have leftLevel : op.leftLevel = .negation := by
    cases op <;> first | rfl | cases compares
  have left := readsLeft (⟨.mark op.mark, span⟩ :: (after ++ rest))
    (stops_cons op.continues?_mark (Nat.le_of_eq (by rw [leftLevel])))
  have operand : ((do
      let op ← comparisonOp
      let right ← negated (readerWithin depth)
      return (op, right)) (⟨.mark op.mark, span⟩ :: (after ++ rest))).result =
        some ((op, other), rest) :=
    (result_bind_of_some (result_comparisonOp op compares span) _).trans
      (result_bind_of_some (readsRight rest (stops.tighten rfl)) _)
  rw [List.append_assoc]
  exact (result_bind_of_some left _).trans
    (result_bind_of_some (result_optional_of_some operand) _)

/-- An operator that associates to the left joins what was read before it to its right operand. -/
theorem Readable.join {op : BinaryOp} {before after : List (Located Token)} {left right : Expr}
    (leftmost : op.leftLevel = op.level) (next : op.level.tighter? = some op.rightLevel)
    (resumes : ∀ inner, resume inner op.level =
      follow (do let _ ← mark op.mark; levelReader inner op.rightLevel) (Expr.join op))
    (first : Readable depth op.level before left)
    (second : Readable depth op.rightLevel after right) (span : Span) :
    Readable depth op.level (before ++ ⟨.mark op.mark, span⟩ :: after)
      (.binary op left right default) := by
  obtain ⟨expr, rfl, readsLeft⟩ := first
  obtain ⟨other, rfl, readsRight⟩ := second
  refine ⟨Expr.join op expr other, rfl, fun rest stops => ?_⟩
  have left := readsLeft (⟨.mark op.mark, span⟩ :: (after ++ rest))
    (stops_cons op.continues?_mark (Nat.le_of_eq (by rw [leftmost])))
  have right := (readsRight rest (stops.tighten next)).trans (result_resume next stops other)
  have operand := (result_bind_of_some (result_mark op.mark span (after ++ rest)) fun _ =>
    levelReader (readerWithin depth) op.rightLevel).trans right
  rw [List.append_assoc]
  refine left.trans ?_
  rw [resumes]
  refine result_follow_of_some operand ?_
  simp only [List.length_cons, List.length_append]
  omega

theorem Readable.binary {op : BinaryOp} {before after : List (Located Token)} {left right : Expr}
    (first : Readable depth op.leftLevel before left)
    (second : Readable depth op.rightLevel after right) (span : Span) :
    Readable depth op.level (before ++ ⟨.mark op.mark, span⟩ :: after)
      (.binary op left right default) := by
  cases op with
  | or => exact Readable.join rfl rfl (fun _ => rfl) first second span
  | and => exact Readable.join rfl rfl (fun _ => rfl) first second span
  | _ => exact Readable.compare rfl first second span

/-- Arguments after the first one, each with the comma before it, up to where no other one comes. -/
theorem reads_nextArgs {args : List (List Token × Expr)}
    (each : ∀ arg ∈ args, ∀ used, values used = arg.1 → Settled depth used arg.2)
    (used : List (Located Token))
    (spelled : values used = (args.map (·.1)).flatMap fun item => .mark .comma :: item) :
    ∃ exprs : List Expr, exprs.map bare = args.map (·.2) ∧ ∀ rest, Ends rest →
      ((do let _ ← mark .comma; readerWithin depth : Reader Expr) rest).result = none →
      (many (do let _ ← mark .comma; readerWithin depth) (used ++ rest)).result =
        some (exprs, rest) := by
  induction args generalizing used with
  | nil =>
      obtain rfl := List.map_eq_nil_iff.mp spelled
      exact ⟨[], rfl, fun rest _ last => result_many_of_none last⟩
  | cons arg args ih =>
      rw [List.map_cons, List.flatMap_cons, List.cons_append] at spelled
      obtain ⟨span, others, rfl, parts⟩ := values_eq_cons spelled
      obtain ⟨item, later, rfl, first, listed⟩ := values_eq_append parts
      obtain ⟨expr, same, reads⟩ := each arg List.mem_cons_self item first
      obtain ⟨exprs, trees, more⟩ :=
        ih (fun arg within => each arg (List.mem_cons_of_mem _ within)) later listed
      refine ⟨expr :: exprs, by rw [List.map_cons, List.map_cons, same, trees], ?_⟩
      intro rest ends last
      have read : ((do let _ ← mark .comma; readerWithin depth : Reader Expr)
          (⟨.mark .comma, span⟩ :: (item ++ (later ++ rest)))).result =
            some (expr, later ++ rest) :=
        (result_bind_of_some (result_mark ..) _).trans (reads _ (ends.after_args listed))
      rw [List.cons_append, List.append_assoc]
      refine result_many_of_some read ?_ (more rest ends last)
      simp only [List.length_cons, List.length_append]
      omega

/-- Nothing is read where a mark stands that begins no expression. -/
theorem result_readerWithin_of_mark {wanted : Mark} (value : literalOf? (.mark wanted) = none)
    (closed : wanted ≠ .parenOpen) (plain : wanted ≠ .notWord) (depth : Nat) (span : Span) :
    (readerWithin depth (⟨.mark wanted, span⟩ :: rest)).result = none := by
  cases depth with
  | zero => rfl
  | succ depth =>
      have atom : (atom (readerWithin depth) (⟨.mark wanted, span⟩ :: rest)).result = none :=
        result_atom_of_mark value closed span
      have nots : (many (mark .notWord) (⟨.mark wanted, span⟩ :: rest)).result =
          some ([], ⟨.mark wanted, span⟩ :: rest) :=
        result_many_of_none (result_mark_of_ne (by simpa using plain))
      have negated : (negated (readerWithin depth) (⟨.mark wanted, span⟩ :: rest)).result = none :=
        (result_bind_of_some nots _).trans (result_bind_of_none (result_filtered_of_atom atom) _)
      exact result_bind_of_none (result_bind_of_none (result_bind_of_none negated _) _) _

theorem result_readerWithin_of_close (depth : Nat) (span : Span) :
    (readerWithin depth (⟨.mark .parenClose, span⟩ :: rest)).result = none :=
  result_readerWithin_of_mark rfl (by decide) (by decide) depth span

/-- A comma with a closing parenthesis after it is not the one before an argument. -/
theorem result_trailing {comma : List (Located Token)}
    (optionally : values comma = [] ∨ values comma = [.mark .comma]) (depth : Nat) (span : Span)
    (rest : List (Located Token)) :
    let tail := comma ++ ⟨.mark .parenClose, span⟩ :: rest
    Ends tail ∧ ((do let _ ← mark .comma; readerWithin depth : Reader Expr) tail).result = none ∧
      ∃ read, (optional (mark .comma) tail).result =
        some (read, ⟨.mark .parenClose, span⟩ :: rest) := by
  rcases optionally with none | one
  · obtain rfl := List.map_eq_nil_iff.mp none
    have absent : (mark .comma (⟨.mark .parenClose, span⟩ :: rest)).result = .none :=
      result_mark_of_ne (by simp)
    exact ⟨.close span rest, result_bind_of_none absent _, _, result_optional_of_none absent⟩
  · obtain ⟨place, others, rfl, last⟩ := values_eq_cons one
    obtain rfl := List.map_eq_nil_iff.mp last
    have read := result_mark .comma place (⟨.mark .parenClose, span⟩ :: rest)
    refine ⟨.comma place _, ?_, _, result_optional_of_some read⟩
    exact (result_bind_of_some read _).trans (result_readerWithin_of_close depth span)

/-- Arguments are read up to the closing parenthesis, with the comma after the last one. -/
theorem reads_commaList {args : List (List Token × Expr)}
    (each : ∀ arg ∈ args, ∀ used, values used = arg.1 → Settled depth used arg.2)
    (used : List (Located Token)) {trailing : List Token}
    (spelled : values used = separated (args.map (·.1)) ++ trailing)
    (optionally : trailing = [] ∨ args ≠ [] ∧ trailing = [.mark .comma]) :
    ∃ exprs : List Expr, exprs.map bare = args.map (·.2) ∧ ∀ span rest,
      (commaList (readerWithin depth) (used ++ ⟨.mark .parenClose, span⟩ :: rest)).result =
        some (exprs, ⟨.mark .parenClose, span⟩ :: rest) := by
  cases args with
  | nil =>
      obtain rfl := optionally.resolve_right fun both => both.1 rfl
      obtain rfl := List.map_eq_nil_iff.mp spelled
      refine ⟨[], rfl, fun span rest => ?_⟩
      exact result_bind_of_some (result_optional_of_none (result_readerWithin_of_close ..)) _
  | cons arg args =>
      rw [List.map_cons, separated, List.append_assoc] at spelled
      obtain ⟨item, others, rfl, first, parts⟩ := values_eq_append spelled
      obtain ⟨later, comma, rfl, listed, rfl⟩ := values_eq_append parts
      obtain ⟨expr, same, reads⟩ := each arg List.mem_cons_self item first
      obtain ⟨exprs, trees, more⟩ := reads_nextArgs
        (fun arg within => each arg (List.mem_cons_of_mem _ within)) later listed
      refine ⟨expr :: exprs, by rw [List.map_cons, List.map_cons, same, trees], ?_⟩
      intro span rest
      obtain ⟨ends, fails, read, closes⟩ :=
        result_trailing (optionally.imp_right And.right) depth span rest
      have head := result_optional_of_some (reads _ (ends.after_args listed))
      rw [List.append_assoc, List.append_assoc]
      refine (result_bind_of_some head _).trans ?_
      refine (result_bind_of_some (more _ ends fails) _).trans ?_
      exact result_bind_of_some closes _

/-- What follows the name of a filter is read up to what continues no filter. -/
theorem reads_filterArgs {args : List (List Token × Expr)}
    (each : ∀ arg ∈ args, ∀ used, values used = arg.1 → Settled depth used arg.2)
    (tail : List (Located Token)) (follows : Arguments (args.map (·.1)) (values tail)) :
    ∃ read : Option (List Expr × Span), (read.elim [] Prod.fst).map bare = args.map (·.2) ∧
      ∀ rest, Stops .filtered rest →
        (optional (filterArgs (readerWithin depth)) (tail ++ rest)).result = some (read, rest) := by
  -- with parentheses there may be a comma after the last argument
  have enclosed {trailing : List Token}
      (spelled : values tail =
        .mark .parenOpen :: (separated (args.map (·.1)) ++ trailing) ++ [.mark .parenClose])
      (optionally : trailing = [] ∨ args ≠ [] ∧ trailing = [.mark .comma]) :
      ∃ read : Option (List Expr × Span), (read.elim [] Prod.fst).map bare = args.map (·.2) ∧
        ∀ rest, Stops .filtered rest →
          (optional (filterArgs (readerWithin depth)) (tail ++ rest)).result =
            some (read, rest) := by
    obtain ⟨first, others, rfl, parts⟩ := values_eq_cons spelled
    obtain ⟨used, closing, rfl, listed, closed⟩ := values_eq_append parts
    obtain ⟨last, nothing, rfl, ended⟩ := values_eq_cons closed
    obtain rfl := List.map_eq_nil_iff.mp ended
    obtain ⟨exprs, trees, reads⟩ := reads_commaList each used listed optionally
    refine ⟨some (exprs, last), trees, fun rest _ => result_optional_of_some ?_⟩
    rw [List.cons_append, List.append_assoc]
    refine (result_bind_of_some (result_mark ..) _).trans ?_
    refine (result_bind_of_some (reads last rest) _).trans ?_
    exact result_bind_of_some (result_mark ..) _
  generalize spelled : values tail = suffix at follows
  generalize listed : args.map (·.1) = items at follows
  cases follows with
  | absent =>
      obtain rfl := List.map_eq_nil_iff.mp listed
      obtain rfl := List.map_eq_nil_iff.mp spelled
      refine ⟨none, rfl, fun rest stops => result_optional_of_none ?_⟩
      have other := stops.head_ne (.mark .parenOpen) rfl (by decide)
      exact result_bind_of_none (result_mark_of_ne other) _
  | enclosed =>
      have spelled' : values tail =
          .mark .parenOpen :: (separated (args.map (·.1)) ++ []) ++ [.mark .parenClose] := by
        rw [spelled, listed, List.append_nil]
      exact enclosed spelled' (Or.inl rfl)
  | trailing present =>
      have spelled' : values tail = .mark .parenOpen ::
          (separated (args.map (·.1)) ++ [.mark .comma]) ++ [.mark .parenClose] := by
        rw [spelled, listed, List.cons_append, List.cons_append, List.append_assoc]
        rfl
      refine enclosed spelled' (Or.inr ⟨fun none => present ?_, rfl⟩)
      rw [← listed, none, List.map_nil]

theorem Readable.filter (readable : Readable depth .filtered used tree) (pipe place : Span)
    (name : String) {args : List (List Token × Expr)}
    (each : ∀ arg ∈ args, ∀ used, values used = arg.1 → Settled depth used arg.2)
    {tail : List (Located Token)} (follows : Arguments (args.map (·.1)) (values tail)) :
    Readable depth .filtered (used ++ ⟨.mark .pipe, pipe⟩ :: ⟨.ident name, place⟩ :: tail)
      (.filter false tree name default (args.map (·.2)) default) := by
  obtain ⟨expr, rfl, reads⟩ := readable
  obtain ⟨read, trees, readsArgs⟩ := reads_filterArgs each tail follows
  let suffix : FilterSuffix := ⟨⟨name, place⟩, read.elim [] Prod.fst, read.elim place Prod.snd⟩
  refine ⟨applyFilter expr suffix, ?_, fun rest stops => ?_⟩
  · rw [applyFilter, bare, listBare_eq_map, trees]
  have next : (filterSuffix (readerWithin depth)
      (⟨.mark .pipe, pipe⟩ :: ⟨.ident name, place⟩ :: (tail ++ rest))).result =
        some (suffix, rest) := by
    refine (result_bind_of_some (result_mark ..) _).trans ?_
    refine (result_bind_of_some rfl _).trans ?_
    refine (result_bind_of_some (readsArgs rest stops) _).trans ?_
    cases read <;> rfl
  rw [List.append_assoc, List.cons_append, List.cons_append]
  refine (reads _ (stops_cons rfl (Nat.le_refl _))).trans ?_
  refine result_follow_of_some next ?_
  simp only [List.length_cons, List.length_append]
  omega

/-- What is derived is read with its tree, by readers that have as many parentheses left as the
tokens may open. -/
theorem readable_of_derives {tokens : List Token} (derived : Derives level tokens tree) :
    ∀ depth used, values used = tokens → tokens.length ≤ depth →
      Readable depth level used tree := by
  induction derived with
  | literal value =>
      intro depth used spelled _
      obtain ⟨span, others, rfl, last⟩ := values_eq_cons spelled
      obtain rfl := List.map_eq_nil_iff.mp last
      exact readable_literal depth value span
  | var name =>
      intro depth used spelled _
      obtain ⟨span, others, rfl, last⟩ := values_eq_cons spelled
      obtain rfl := List.map_eq_nil_iff.mp last
      exact readable_var depth name span
  | parens _ ih =>
      intro depth used spelled enough
      obtain ⟨first, others, rfl, parts⟩ := values_eq_cons spelled
      obtain ⟨inside, closing, rfl, listed, closed⟩ := values_eq_append parts
      obtain ⟨last, nothing, rfl, ended⟩ := values_eq_cons closed
      obtain rfl := List.map_eq_nil_iff.mp ended
      simp only [List.length_append, List.length_cons] at enough
      cases depth with
      | zero => omega
      | succ depth =>
          have fits := ih depth inside listed (by omega)
          exact fits.settled.parens first last
  | attr _ name ih =>
      intro depth used spelled enough
      obtain ⟨before, after, rfl, listed, parts⟩ := values_eq_append spelled
      obtain ⟨dot, others, rfl, named⟩ := values_eq_cons parts
      obtain ⟨place, nothing, rfl, ended⟩ := values_eq_cons named
      obtain rfl := List.map_eq_nil_iff.mp ended
      simp only [List.length_append, List.length_cons] at enough
      exact (ih depth before listed (by omega)).attr dot place name
  | filter _ name _ follows ih ihArgs =>
      intro depth used spelled enough
      obtain ⟨before, others, rfl, listed, parts⟩ := values_eq_append spelled
      obtain ⟨pipe, named, rfl, rest⟩ := values_eq_cons parts
      obtain ⟨place, tail, rfl, rfl⟩ := values_eq_cons rest
      simp only [List.length_append, List.length_cons] at enough
      cases depth with
      | zero => omega
      | succ depth =>
          refine (ih _ before listed (by omega)).filter pipe place name ?_ follows
          intro arg within item same
          have shorter := follows.length_le (List.mem_map_of_mem within)
          exact (ihArgs arg within depth item same (by omega)).settled
  | negate _ ih =>
      intro depth used spelled enough
      obtain ⟨span, others, rfl, listed⟩ := values_eq_cons spelled
      rw [List.length_cons] at enough
      exact (ih depth others listed (by omega)).negate span
  | binary op _ _ ih ih' =>
      intro depth used spelled enough
      obtain ⟨before, others, rfl, listed, parts⟩ := values_eq_append spelled
      obtain ⟨span, after, rfl, listed'⟩ := values_eq_cons parts
      simp only [List.length_append, List.length_cons] at enough
      have first := ih depth before listed (by omega)
      have second := ih' depth after listed' (by omega)
      exact first.binary second span
  | of_tighter next _ ih =>
      intro depth used spelled enough
      exact (ih depth used spelled enough).of_tighter next

/-- Tokens that are derived are read with their tree. -/
theorem reader_of_derives (derived : Derives .disjunction (values used) tree) (ends : Ends rest) :
    ∃ expr : Expr, expr.bare = tree ∧ (reader (used ++ rest)).result = some (expr, rest) := by
  have enough : (values used).length ≤ (used ++ rest).length := by
    rw [length_values, List.length_append]
    exact Nat.le_add_right ..
  obtain ⟨expr, same, reads⟩ := (readable_of_derives derived _ used rfl enough).settled
  exact ⟨expr, same, reads rest ends⟩

end Expr

end QueryTemplate
